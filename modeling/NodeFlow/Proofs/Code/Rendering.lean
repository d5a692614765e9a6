import NodeFlow.Code.Program
import NodeFlow.Proofs.Code.Inlining
import NodeFlow.Proofs.Triple

/-!
# Expressions over bound names

In a graph without cycles, the expression for an output over bound names is the name of the node if
it has one, and is otherwise written from the expressions of what comes in (`render_of_node`).  So
it is the expression with everything written out as soon as each bound node is given its own
expression (`render_eq_expression`), and it is missing only where a constant cannot be written
(`unwritable_of_render`).
-/

open Relation NodeFlow.Outcome

namespace NodeFlow.Code

/-! ### The rendering of an output -/

/-- The expression for an output of a node over bound names is `text`, or there is none. -/
inductive Renders (g : Graph) (bound : Bound) : Key → Spelling → Prop
  | named {id : String} {handle : Option String} {name : String}
      (hb : bound.lookup id = some name) : Renders g bound (id, handle) (.ok name)
  | absent {id : String} {handle : Option String} (hb : bound.lookup id = none)
      (hn : g.node? id = none) : Renders g bound (id, handle) (.ok nothing)
  | node {id : String} {handle : Option String} {n : Node} (hb : bound.lookup id = none)
      (hn : g.node? id = some n) (T : Key → Spelling) (parts : ∀ e ∈ (g.origin n).edges,
        Renders g bound (e.source, e.sourceHandle) (T (e.source, e.sourceHandle))) :
      Renders g bound (id, handle) (composed handle (g.origin n) T)

variable {g : Graph} {bound : Bound} {id name text : String} {spelling spelling' : Spelling}
  {handle : Option String} {n : Node} {key : Key} {depth : Nat} {way : List String}

/-- Something for each source of an edge is something for each output. -/
theorem exists_for_outputs {α : Type} [Inhabited α] {edges : List Edge} {R : Key → α → Prop}
    (h : ∀ e ∈ edges, ∃ a, R (e.source, e.sourceHandle) a) :
    ∃ T : Key → α, ∀ e ∈ edges, R (e.source, e.sourceHandle) (T (e.source, e.sourceHandle)) := by
  have each : ∀ key : Key, ∃ a, (∃ e ∈ edges, key = (e.source, e.sourceHandle)) → R key a := by
    intro key
    by_cases hkey : ∃ e ∈ edges, key = (e.source, e.sourceHandle)
    · obtain ⟨e, he, rfl⟩ := hkey
      obtain ⟨a, ha⟩ := h e he
      exact ⟨a, fun _ => ha⟩
    · exact ⟨default, fun hk => absurd hk hkey⟩
  choose T hT using each
  exact ⟨T, fun e he => hT _ ⟨e, he, rfl⟩⟩

theorem Renders.unique (h : Renders g bound key spelling) (h' : Renders g bound key spelling') :
    spelling = spelling' := by
  induction h generalizing spelling' with
  | named hb =>
    cases h' with
    | named hb' => exact congrArg _ (Option.some.inj (hb.symm.trans hb'))
    | absent hb' | node hb' =>
      rw [hb] at hb'
      cases hb'
  | absent hb hn =>
    cases h' with
    | named hb' =>
      rw [hb] at hb'
      cases hb'
    | absent => rfl
    | node _ hn' =>
      rw [hn] at hn'
      cases hn'
  | node hb hn T _ ih =>
    cases h' with
    | named hb' =>
      rw [hb] at hb'
      cases hb'
    | absent _ hn' =>
      rw [hn] at hn'
      cases hn'
    | node _ hn' T' parts' =>
      rw [hn] at hn'
      obtain rfl := Option.some.inj hn'
      exact composed_congr fun e he => ih e he (parts' e he)

theorem exists_renders (hc : ¬ g.Circular id) (bound : Bound) (handle : Option String) :
    ∃ spelling, Renders g bound (id, handle) spelling := by
  obtain ⟨t, ht⟩ := Graph.exists_unfolds hc
  clear hc
  induction ht generalizing handle with
  | @absent id hn =>
    cases hb : bound.lookup id with
    | some name => exact ⟨_, .named hb⟩
    | none => exact ⟨_, .absent hb hn⟩
  | @node id n hn children _ ih =>
    cases hb : bound.lookup id with
    | some name => exact ⟨_, .named hb⟩
    | none =>
      obtain ⟨T, hT⟩ := exists_for_outputs (R := Renders g bound) fun e he =>
        ih e he e.sourceHandle
      exact ⟨_, .node hb hn T hT⟩

/-! ### Runs -/

/-- A memo of renderings. -/
def Rendered (g : Graph) (bound : Bound) (memo : Memo) : Prop :=
  ∀ entry ∈ memo, Renders g bound entry.1 (.ok entry.2)

theorem Rendered.cons {memo : Memo} (h : Rendered g bound memo)
    (htext : Renders g bound key (.ok text)) : Rendered g bound ((key, text) :: memo) :=
  List.forall_mem_cons.2 ⟨htext, h⟩

theorem gives_parts {T : Key → Spelling} {P : Memo → Prop} {ask : Key → Writing String}
    {origin : Origin} (h : ∀ e ∈ origin.edges, Gives P (ask (e.source, e.sourceHandle)).run
      (T (e.source, e.sourceHandle))) (handle : Option String) :
    Gives P (originText handle ask origin).run (composed handle origin T) := by
  rw [originText_eq, composed]
  refine (Gives.mapM_outcome fun e he => ?_).bind_outcome fun parts _ => .pure _
  cases e with
  | none => exact .pure (Except.ok nothing)
  | some e => exact h e (Origin.mem_edges_iff.2 he)

theorem run_renderFrom_named (hb : bound.lookup id = some name) (memo : Memo) :
    (renderFrom g bound (depth + 1) way (id, handle)).run memo = (.ok name, memo) := by
  rw [renderFrom, hb]
  rfl

theorem run_renderFrom_absent (hb : bound.lookup id = none) (hn : g.node? id = none)
    (memo : Memo) :
    (renderFrom g bound (depth + 1) way (id, handle)).run memo = (.ok nothing, memo) := by
  rw [renderFrom, hb, hn]
  rfl

theorem run_renderFrom_node (hb : bound.lookup id = none) (hn : g.node? id = some n)
    (memo : Memo) :
    (renderFrom g bound (depth + 1) way (id, handle)).run memo =
      match memo.lookup (id, handle) with
      | some text => (.ok text, memo)
      | none =>
        if way.contains id then (.ok cycleMark, memo)
        else
          match (originText handle (renderFrom g bound depth (id :: way)) (g.origin n)).run memo with
          | (.ok text, memo') => (.ok text, ((id, handle), text) :: memo')
          | (.error c, memo') => (.error c, memo') := by
  rw [renderFrom, hb, hn]
  show ((match memo.lookup (id, handle) with
    | some text => pure text
    | none => _ : Writing String)).run memo = _
  cases memo.lookup (id, handle) with
  | some text => rfl
  | none =>
    dsimp only
    split
    · rfl
    · rw [run_bind]
      rcases (originText _ _ _).run memo with ⟨c | text, memo'⟩ <;> rfl

/-! ### Runs told by rules -/

/-- What an output over bound names is written as, told by one relation for runs that give texts and
one for runs that stop, with a rule for each branch of `renderFrom`.  The nodes whose expressions are
being written depend on each other in turn, so one that is met again is circular. -/
structure Branches (g : Graph) (bound : Bound)
    (R : List String → List (Option Key) → Memo → List String → Memo → Prop)
    (S : List String → List (Option Key) → Memo → Memo → Prop) : Prop where
  successive : ∀ way, Successive (R way) (S way)
  named : ∀ {way id handle name memo}, bound.lookup id = some name →
    R way [some (id, handle)] memo [name] memo
  absent : ∀ {way id handle memo}, bound.lookup id = none → g.node? id = none →
    R way [some (id, handle)] memo [nothing] memo
  known : ∀ {way id handle n text memo}, bound.lookup id = none → g.node? id = some n →
    memo.lookup (id, handle) = some text → R way [some (id, handle)] memo [text] memo
  again : ∀ {way id handle n memo}, bound.lookup id = none → g.node? id = some n →
    memo.lookup (id, handle) = none → id ∈ way → g.Circular id →
    R way [some (id, handle)] memo [cycleMark] memo
  fresh : ∀ {way id handle n text parts memo memo'}, bound.lookup id = none →
    g.node? id = some n → memo.lookup (id, handle) = none → id ∉ way →
    R (id :: way) ((g.origin n).wires.map wanted) memo parts memo' →
    written handle (g.origin n) parts = .ok text →
    R way [some (id, handle)] memo [text] (((id, handle), text) :: memo')
  inside : ∀ {way id handle n memo memo'}, bound.lookup id = none → g.node? id = some n →
    memo.lookup (id, handle) = none → id ∉ way →
    S (id :: way) ((g.origin n).wires.map wanted) memo memo' →
    S way [some (id, handle)] memo memo'
  here : ∀ {way id handle n parts memo memo'}, bound.lookup id = none → g.node? id = some n →
    memo.lookup (id, handle) = none → id ∉ way →
    R (id :: way) ((g.origin n).wires.map wanted) memo parts memo' →
    written handle (g.origin n) parts = .error ⟨⟩ → S way [some (id, handle)] memo memo'

namespace Branches

variable {R : List String → List (Option Key) → Memo → List String → Memo → Prop}
  {S : List String → List (Option Key) → Memo → Memo → Prop}

/-- The parts of a node are written one after the other. -/
theorem ends_parts (h : Branches g bound R S) {ask : Key → Writing String}
    (hask : ∀ e ∈ (g.origin n).edges, ∀ memo,
      EndsAt (R way) (S way) (some (e.source, e.sourceHandle)) memo
        ((ask (e.source, e.sourceHandle)).run memo)) (memo : Memo) :
    Ends (R way) (S way) ((g.origin n).wires.map wanted) memo
      (((g.origin n).wires.mapM (brought ask)).run memo) :=
  (h.successive way).mapM (fun e he => hask e (Origin.mem_edges_iff.2 he)) memo

/-- Every run is told by the rules, whatever is in the memo. -/
theorem endsAt_renderFrom (h : Branches g bound R S)
    (trail : Trail g.Depends g.ids way key.1 depth) (memo : Memo) :
    EndsAt (R way) (S way) (some key) memo ((renderFrom g bound depth way key).run memo) := by
  induction depth generalizing way key memo with
  | zero => exact absurd trail.pos (Nat.lt_irrefl 0)
  | succ depth ih =>
    obtain ⟨id, handle⟩ := key
    cases hb : bound.lookup id with
    | some name =>
      rw [run_renderFrom_named hb]
      exact h.named hb
    | none =>
      cases hn : g.node? id with
      | none =>
        rw [run_renderFrom_absent hb hn]
        exact h.absent hb hn
      | some n =>
        rw [run_renderFrom_node hb hn]
        cases hmemo : memo.lookup (id, handle) with
        | some text => exact h.known hb hn hmemo
        | none =>
          by_cases hway : id ∈ way
          · rw [if_pos (List.contains_iff_mem.2 hway)]
            have hc : g.Circular id := by
              by_contra hc
              exact Graph.notMem_of_not_circular trail hc hway
            exact h.again hb hn hmemo hway hc
          · rw [if_neg (mt List.contains_iff_mem.1 hway), run_originText]
            have hparts := h.ends_parts (fun e he memo => ih (trail.step
              (Graph.mem_ids_of_node? hn) hway (Graph.depends_source hn he)) memo) memo
            rcases hrun : ((g.origin n).wires.mapM
              (brought (renderFrom g bound depth (id :: way)))).run memo with ⟨c | parts, memo'⟩
            · rw [hrun] at hparts
              exact h.inside hb hn hmemo hway hparts
            · rw [hrun] at hparts
              dsimp only
              cases htext : written handle (g.origin n) parts with
              | error c => exact h.here hb hn hmemo hway hparts htext
              | ok text => exact h.fresh hb hn hmemo hway hparts htext

theorem endsAt_render (h : Branches g bound R S) (key : Key) :
    ∃ memo, EndsAt (R []) (S []) (some key) [] (render g bound key, memo) :=
  ⟨_, h.endsAt_renderFrom (Graph.trail_start (Nat.lt_succ_self _) key.1) []⟩

/-- The expression for a node's own variable is written from its parts, with the node on the way. -/
theorem ends_assignment (h : Branches g bound R S) (hn : g.node? id = some n) :
    ∃ outcome memo,
      Ends (R [id]) (S [id]) ((g.origin n).wires.map wanted) [] (outcome, memo) ∧
      assignment g bound id = outcome >>= written none (g.origin n) := by
  have start : Trail g.Depends g.ids [] id (g.nodes.length + 2) :=
    Graph.trail_start (by omega) id
  have hparts : Ends (R [id]) (S [id]) ((g.origin n).wires.map wanted) []
      (((g.origin n).wires.mapM (brought (renderFrom g bound (g.nodes.length + 1) [id]))).run []) :=
    h.ends_parts (fun e he memo => h.endsAt_renderFrom (start.step (Graph.mem_ids_of_node? hn)
      List.not_mem_nil (Graph.depends_source hn he)) memo) []
  rcases hrun : ((g.origin n).wires.mapM
    (brought (renderFrom g bound (g.nodes.length + 1) [id]))).run [] with ⟨outcome, memo⟩
  rw [hrun] at hparts
  refine ⟨outcome, memo, hparts, ?_⟩
  rw [assignment, hn]
  dsimp only
  rw [run_originText, hrun]
  cases outcome <;> rfl

end Branches

/-! ### Runs in graphs without cycles -/

theorem gives_renderFrom (hg : g.Acyclic) (h : Renders g bound key spelling)
    (trail : Trail g.Depends g.ids way key.1 depth) :
    Gives (Rendered g bound) (renderFrom g bound depth way key).run spelling := by
  obtain ⟨depth, rfl⟩ := Nat.exists_eq_add_one.2 trail.pos
  induction h generalizing depth way with
  | named hb =>
    refine Gives.iff_run.2 fun memo hmemo => ?_
    rw [run_renderFrom_named hb]
    exact ⟨rfl, hmemo⟩
  | absent hb hn =>
    refine Gives.iff_run.2 fun memo hmemo => ?_
    rw [run_renderFrom_absent hb hn]
    exact ⟨rfl, hmemo⟩
  | @node id handle n hb hn T parts ih =>
    have hid : id ∉ way := Graph.notMem_of_not_circular trail (hg.not_circular id)
    have hrenders : Renders g bound (id, handle) _ := .node hb hn T parts
    have inner : ∀ e ∈ (g.origin n).edges, Gives (Rendered g bound)
        (renderFrom g bound depth (id :: way) (e.source, e.sourceHandle)).run
        (T (e.source, e.sourceHandle)) := by
      intro e he
      have step := trail.step (Graph.mem_ids_of_node? hn) hid (Graph.depends_source hn he)
      obtain ⟨depth, rfl⟩ := Nat.exists_eq_add_one.2 step.pos
      exact ih e he depth step
    refine Gives.iff_run.2 fun memo hmemo => ?_
    rw [run_renderFrom_node hb hn]
    cases hlookup : memo.lookup (id, handle) with
    | some text =>
      have hfound : Renders g bound (id, handle) (.ok text) := hmemo _ (mem_of_lookup hlookup)
      exact ⟨hfound.unique hrenders, hmemo⟩
    | none =>
      rw [if_neg (mt List.contains_iff_mem.1 hid)]
      have hparts := Gives.iff_run.1 (gives_parts inner handle) memo hmemo
      rcases hrun : (originText handle (renderFrom g bound depth (id :: way)) (g.origin n)).run memo
        with ⟨c | text, memo'⟩
      · rw [hrun] at hparts
        exact hparts
      · rw [hrun] at hparts
        have hspelling : Except.ok text = composed handle (g.origin n) T := hparts.1
        rw [← hspelling] at hrenders
        exact ⟨hspelling, hparts.2.cons hrenders⟩

/-- What is rendered is the rendering. -/
theorem renders_render (hg : g.Acyclic) (bound : Bound) (key : Key) :
    Renders g bound key (render g bound key) := by
  obtain ⟨id, handle⟩ := key
  obtain ⟨spelling, hrenders⟩ := exists_renders (hg.not_circular id) bound handle
  have hrun : render g bound (id, handle) = spelling :=
    (gives_renderFrom hg hrenders (Graph.trail_start (Nat.lt_succ_self _) id)).run_fst nofun
  rw [hrun]
  exact hrenders

theorem render_of_bound (hg : g.Acyclic) (hb : bound.lookup id = some name) :
    render g bound (id, handle) = .ok name :=
  (renders_render hg bound _).unique (.named hb)

theorem render_of_absent (hg : g.Acyclic) (hb : bound.lookup id = none) (hn : g.node? id = none) :
    render g bound (id, handle) = .ok nothing :=
  (renders_render hg bound _).unique (.absent hb hn)

theorem render_of_node (hg : g.Acyclic) (hb : bound.lookup id = none) (hn : g.node? id = some n) :
    render g bound (id, handle) = composed handle (g.origin n) (render g bound) :=
  (renders_render hg bound _).unique (.node hb hn _ fun _ _ => renders_render hg bound _)

theorem assignment_of_absent (hn : g.node? id = none) : assignment g bound id = .ok nothing := by
  rw [assignment, hn]

theorem assignment_of_node (hg : g.Acyclic) (hn : g.node? id = some n) :
    assignment g bound id = composed none (g.origin n) (render g bound) := by
  have start : Trail g.Depends g.ids [] id (g.nodes.length + 2) :=
    Graph.trail_start (by omega) id
  have inner : ∀ e ∈ (g.origin n).edges, Gives (Rendered g bound)
      (renderFrom g bound (g.nodes.length + 1) [id] (e.source, e.sourceHandle)).run
      (render g bound (e.source, e.sourceHandle)) := by
    intro e he
    have step := start.step (Graph.mem_ids_of_node? hn) List.not_mem_nil
      (Graph.depends_source hn he)
    exact gives_renderFrom hg (renders_render hg bound _) step
  rw [assignment, hn]
  exact (gives_parts inner none).run_fst nofun

/-! ### Expressions that are missing -/

/-- Whatever the graph, an expression over bound names is missing only where a constant cannot be
written. -/
theorem branches_unwritable (g : Graph) (bound : Bound) :
    Branches g bound (fun _ _ _ _ _ => True)
      fun _ keys _ _ => ∃ key, some key ∈ keys ∧ g.Unwritable key.1 where
  successive _ := {
    done _ := trivial
    unwired _ := trivial
    next _ _ := trivial
    later := fun _ ⟨key, hkey, h⟩ => ⟨key, List.mem_cons_of_mem _ hkey, h⟩
    stop := fun ⟨key, hkey, h⟩ keys => ⟨key, List.mem_append_left keys hkey, h⟩ }
  named _ := trivial
  absent _ _ := trivial
  known _ _ _ := trivial
  again _ _ _ _ _ := trivial
  fresh _ _ _ _ _ _ := trivial
  inside := fun {_ id handle _ _ _} _ hn _ _ ⟨_, hkey, h⟩ => ⟨(id, handle), List.mem_cons_self,
    Graph.unwritable_of_depends (Graph.depends_of_wanted hn hkey) h⟩
  here := fun {_ id handle _ _ _ _} _ hn _ _ _ hwritten =>
    ⟨(id, handle), List.mem_cons_self, Graph.unwritable_of_written hn hwritten⟩

theorem unwritable_of_render (h : render g bound key = .error ⟨⟩) : g.Unwritable key.1 := by
  obtain ⟨memo, hends⟩ := (branches_unwritable g bound).endsAt_render key
  rw [h] at hends
  obtain ⟨key', hkey, hunwritable⟩ := hends
  obtain rfl := Option.some.inj (List.mem_singleton.1 hkey)
  exact hunwritable

theorem unwritable_of_assignment (h : assignment g bound id = .error ⟨⟩) : g.Unwritable id := by
  cases hn : g.node? id with
  | none =>
    rw [assignment_of_absent hn] at h
    cases h
  | some n =>
    obtain ⟨outcome, memo, hends, hassignment⟩ := (branches_unwritable g bound).ends_assignment hn
    rcases bind_eq_error_iff.1 (hassignment.symm.trans h) with rfl | ⟨parts, rfl, hwritten⟩
    · obtain ⟨key, hkey, hunwritable⟩ := hends
      exact Graph.unwritable_of_depends (Graph.depends_of_wanted hn hkey) hunwritable
    · exact Graph.unwritable_of_written hn hwritten

/-! ### Bound nodes that are given their own expressions -/

theorem exists_node_of_needsTemporary {governed : List Graph.Governed}
    (h : needsTemporary g governed id = true) : ∃ n, g.node? id = some n ∧ n.isLoop = false := by
  rw [needsTemporary] at h
  cases hn : g.node? id with
  | none => simp [hn] at h
  | some n =>
    refine ⟨n, rfl, ?_⟩
    by_contra hloop
    simp [hn, Graph.isLoop, hloop] at h

/-- Only nodes with a temporary are bound, each to the given expression for it. -/
def BoundTo (g : Graph) (T : Key → Spelling) (bound : Bound) : Prop :=
  ∀ id text, bound.lookup id = some text →
    needsTemporary g g.governed id = true ∧ T (id, none) = .ok text

/-- All outputs of a node with a temporary have the same expression. -/
theorem expression_eq_expression (hg : g.Acyclic) {governed : List Graph.Governed}
    (h : needsTemporary g governed id = true) (handle : Option String) :
    g.expression (id, none) = g.expression (id, handle) := by
  obtain ⟨n, hn, hloop⟩ := exists_node_of_needsTemporary h
  rw [Graph.expression_of_node (hg.not_circular id) hn,
    Graph.expression_of_node (hg.not_circular id) hn, composed, composed]
  exact congrArg _ (funext (Graph.written_eq_written hloop none handle))

theorem Renders.eq_expression (hg : g.Acyclic) (hbound : BoundTo g g.expression bound)
    (h : Renders g bound key spelling) : spelling = g.expression key := by
  induction h with
  | @named id handle name hb =>
    obtain ⟨hneeds, hname⟩ := hbound id name hb
    rw [← hname]
    exact expression_eq_expression hg hneeds handle
  | absent _ hn => exact (Graph.expression_of_absent hn).symm
  | @node id handle n _ hn T _ ih =>
    rw [Graph.expression_of_node (hg.not_circular id) hn]
    exact composed_congr ih

theorem render_eq_expression (hg : g.Acyclic) (hbound : BoundTo g g.expression bound) (key : Key) :
    render g bound key = g.expression key :=
  (renders_render hg bound key).eq_expression hg hbound

theorem assignment_eq_expression (hg : g.Acyclic) (hbound : BoundTo g g.expression bound)
    (id : String) : assignment g bound id = g.expression (id, none) := by
  cases hn : g.node? id with
  | none => rw [assignment_of_absent hn, Graph.expression_of_absent hn]
  | some n =>
    have hrender : render g bound = g.expression := funext (render_eq_expression hg hbound)
    rw [assignment_of_node hg hn, hrender, Graph.expression_of_node (hg.not_circular id) hn]

end NodeFlow.Code
