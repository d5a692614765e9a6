import NodeFlow.Proofs.Preview.Evaluate

/-!
# Sources first

Evaluation asks for the nodes in an order in which sources come first.  When it comes to a node, all
that the node depends on is known already, but for members of its own component: there is a value of
it, or it is known to have none (`sources_settled_first`).

What a question does on the way to its answer is told by a watched visit (`watch`).  It does what a
visit does, and notes each node whose value it begins to compute (`Watches`).  A known node is never
among these, so the notes stay within the component, and within the node itself where there are no
cycles.
-/

open Relation NodeFlow.Outcome

namespace NodeFlow.Preview

variable {s : Setting} {g : Graph} {record : Value} {id : String} {α β : Type}
  {settled inside : String → Prop}

/-! ### Known nodes -/

/-- A node is known: a value of it is in the memo, or it is known to have none. -/
def IsKnown (known : Memo × List String) (id : String) : Prop :=
  (∃ v, (id, v) ∈ known.1) ∨ id ∈ known.2

theorem IsKnown.mono {memo memo' : Memo} {failed : List String} (h : IsKnown (memo, failed) id)
    (grows : memo <+: memo') : IsKnown (memo', failed) id :=
  h.imp_left fun ⟨v, hv⟩ => ⟨v, grows.subset hv⟩

theorem Settled.isKnown_step {done : List String} {known : Memo × List String}
    (h : Settled g record done known) (id : String) :
    (∀ m, IsKnown known m → IsKnown (settleNode g record known id) m) ∧
      (id ∈ g.ids → IsKnown (settleNode g record known id) id) := by
  obtain ⟨a, memo', run, isAnswer, -, grows, -⟩ := exists_run_compute h.failed h.sound id
  rw [settleNode, run]
  cases a with
  | ok v =>
    refine ⟨fun m hm => IsKnown.mono hm grows, fun hid => Or.inl ?_⟩
    rw [run_compute] at run
    obtain ⟨hanswer, rfl⟩ := Prod.mk.inj run
    exact exists_mem_memo_of_run (Prod.ext hanswer rfl) hid
  | error c =>
    refine ⟨fun m hm => ?_, fun _ => Or.inr (List.mem_append_right _ (List.mem_singleton_self id))⟩
    exact (IsKnown.mono hm grows).imp_right (List.mem_append_left [id])

/-- Each node that was evaluated is known from then on. -/
theorem isKnown_of_mem {ids : List String} (hid : id ∈ ids) (hnode : id ∈ g.ids) :
    IsKnown (ids.foldl (settleNode g record) ([], [])) id := by
  have start : Settled g record [] ([], []) := ⟨nofun, nofun, nofun⟩
  induction ids using List.reverseRecOn with
  | nil => cases hid
  | append_singleton ids last ih =>
    have hstep := (start.run ids).isKnown_step last
    rw [List.foldl_append, List.foldl_cons, List.foldl_nil]
    rcases List.mem_append.1 hid with hid | hid
    · exact hstep.1 id (ih hid)
    · obtain rfl := List.mem_singleton.1 hid
      exact hstep.2 hnode

/-! ### Watched visits -/

/-- A visit with notes of the nodes whose values it began to compute, in turn. -/
abbrev Watched (α : Type) := ExceptT Cycle (StateM (Context × List String)) α

/-- Does something while a node counts as being visited, and notes the node. -/
def watching (id : String) (x : Watched α) : Watched α := ExceptT.mk do
  modify fun (c, notes) => (c.enter id, notes ++ [id])
  let outcome ← x.run
  modify fun (c, notes) => (c.leave id, notes)
  return outcome

/-- The value of a node, found as in a visit. -/
def watch (s : Setting) : Nat → String → Watched Value
  | 0, id => throw ⟨id⟩
  | depth + 1, id => do
    let (context, _) ← get
    match context.memo.lookup id with
    | some value => return value
    | none =>
      match s.graph.node? id with
      | none => return .null
      | some n =>
        if context.visiting.contains id || s.failed.contains id then throw ⟨id⟩
        let value ← watching id (originValue s.record (watch s depth) (s.graph.origin n))
        modify fun (c, notes) => (c.remember id value, notes)
        return value

/-- What a watched visit does in a context. -/
theorem run_watch (depth : Nat) (id : String) (c : Context) (notes : List String) :
    (watch s (depth + 1) id).run (c, notes) =
      (match c.memo.lookup id with
      | some value => return value
      | none =>
        match s.graph.node? id with
        | none => return .null
        | some n =>
          if c.visiting.contains id || s.failed.contains id then throw ⟨id⟩
          else do
            let value ← watching id (originValue s.record (watch s depth) (s.graph.origin n))
            modify fun (c, notes) => (c.remember id value, notes)
            return value : Watched Value).run (c, notes) := by
  rw [watch, run_bind]
  show (match c.memo.lookup id with | some value => _ | none => _ : Watched Value).run _ = _
  cases c.memo.lookup id with
  | some value => rfl
  | none =>
    cases s.graph.node? id with
    | none => rfl
    | some n =>
      dsimp only
      split <;> rfl

/-! ### What is noted -/

/-- Where all nodes in `settled` are known, `y` does what `x` does, and notes nodes in `inside`
only. -/
def Watches (s : Setting) (settled inside : String → Prop) (x : Visit α) (y : Watched α) : Prop :=
  ∀ c notes, (∀ m ∈ s.graph.ids, settled m → IsKnown (c.memo, s.failed) m) → ∃ new,
    y.run (c, notes) = ((x.run c).1, ((x.run c).2, notes ++ new)) ∧ (∀ m ∈ new, inside m) ∧
      c.memo <+: (x.run c).2.memo

theorem watches_pure (v : α) : Watches s settled inside (pure v) (pure v) :=
  fun c notes _ => ⟨[], by rw [List.append_nil]; rfl, nofun, List.prefix_rfl⟩

theorem watches_throw (e : Cycle) :
    Watches s settled inside (throw e : Visit α) (throw e : Watched α) :=
  fun c notes _ => ⟨[], by rw [List.append_nil]; rfl, nofun, List.prefix_rfl⟩

theorem Watches.bind {x : Visit α} {y : Watched α} {f : α → Visit β} {k : α → Watched β}
    (hx : Watches s settled inside x y) (hf : ∀ v, Watches s settled inside (f v) (k v)) :
    Watches s settled inside (x >>= f) (y >>= k) := by
  intro c notes known
  obtain ⟨new, run, hnew, grows⟩ := hx c notes known
  rw [run_bind, run_bind, run]
  rcases hrun : x.run c with ⟨e | v, c'⟩
  · exact ⟨new, rfl, hnew, by rwa [hrun] at grows⟩
  · rw [hrun] at grows
    obtain ⟨new', run', hnew', grows'⟩ :=
      hf v c' (notes ++ new) fun m hm hsettled => (known m hm hsettled).mono grows
    refine ⟨new ++ new', ?_, List.forall_mem_append.2 ⟨hnew, hnew'⟩, grows.trans grows'⟩
    rw [← List.append_assoc]
    exact run'

theorem watches_mapM {f : α → Visit β} {k : α → Watched β} {l : List α}
    (h : ∀ i ∈ l, Watches s settled inside (f i) (k i)) :
    Watches s settled inside (l.mapM f) (l.mapM k) := by
  induction l with
  | nil => exact watches_pure []
  | cons i rest ih =>
    rw [List.mapM_cons, List.mapM_cons]
    refine (h i List.mem_cons_self).bind fun v => ?_
    refine (ih fun j hj => h j (List.mem_cons_of_mem i hj)).bind fun vs => ?_
    exact watches_pure (v :: vs)

theorem watches_brought {ask : String → Visit Value} {ask' : String → Watched Value}
    {e : Option Edge} (h : ∀ e' ∈ e, Watches s settled inside (ask e'.source) (ask' e'.source)) :
    Watches s settled inside (brought ask e) (brought ask' e) := by
  cases e with
  | none => exact watches_pure Value.null
  | some e => exact h e rfl

theorem watches_originValue {ask : String → Visit Value} {ask' : String → Watched Value}
    {origin : Origin}
    (h : ∀ e ∈ origin.edges, Watches s settled inside (ask e.source) (ask' e.source)) :
    Watches s settled inside (originValue s.record ask origin)
      (originValue s.record ask' origin) := by
  cases origin with
  | path | constant | unknown => exact watches_pure _
  | operation op inputs =>
    refine (watches_mapM ?_).bind fun args => watches_pure _
    rintro ⟨port, e⟩ hinput
    refine (watches_brought fun e' he => ?_).bind fun v => watches_pure (port, v)
    exact h e' (List.mem_filterMap.2 ⟨(port, e), hinput, he⟩)
  | edge e => exact watches_brought fun e' he => h e' (Option.mem_toList.2 he)

/-- A node that is visited meanwhile is noted first. -/
theorem Watches.during {x : Visit α} {y : Watched α} (h : Watches s settled inside x y)
    (id : String) (c : Context) (notes : List String)
    (known : ∀ m ∈ s.graph.ids, settled m → IsKnown (c.memo, s.failed) m) :
    ∃ inner, (watching id y).run (c, notes) =
        (((during id x).run c).1, (((during id x).run c).2, notes ++ id :: inner)) ∧
      (∀ m ∈ inner, inside m) ∧ c.memo <+: ((during id x).run c).2.memo := by
  obtain ⟨inner, run, hinner, grows⟩ := h (c.enter id) (notes ++ [id]) known
  refine ⟨inner, ?_, hinner, grows⟩
  show (match y.run (c.enter id, notes ++ [id]) with | (a, c', notes') => (a, c'.leave id, notes'))
    = _
  rw [run, List.append_assoc]
  rfl

/-- A visit that finds the node known, or none of that name, notes nothing. -/
theorem watches_settled (h : settled id) (depth depth' : Nat) :
    Watches s settled inside (visit s (depth + 1) id) (watch s (depth' + 1) id) := by
  intro c notes known
  rw [run_visit, run_watch]
  cases hv : c.memo.lookup id with
  | some v => exact watches_pure v c notes known
  | none =>
    cases hn : s.graph.node? id with
    | none => exact watches_pure Value.null c notes known
    | some n =>
      have hfailed : id ∈ s.failed := by
        refine (known id (Graph.mem_ids_of_node? hn) h).resolve_left ?_
        rintro ⟨v, hmem⟩
        have hother := List.lookup_eq_none_iff.1 hv (id, v) hmem
        simp at hother
      simp only [List.contains_iff_mem.2 hfailed, Bool.or_true, if_true]
      exact watches_throw ⟨id⟩ c notes known

/-- A visit notes its own node, if any, before those that it notes for the sources. -/
theorem exists_run_watch {depth depth' : Nat} (h : ∀ other, s.graph.Depends id other →
      Watches s settled inside (visit s depth other) (watch s depth' other))
    (c : Context) (notes : List String)
    (known : ∀ m ∈ s.graph.ids, settled m → IsKnown (c.memo, s.failed) m) :
    ∃ new, (watch s (depth' + 1) id).run (c, notes) =
        (((visit s (depth + 1) id).run c).1, (((visit s (depth + 1) id).run c).2, notes ++ new)) ∧
      (new = [] ∨ ∃ inner, new = id :: inner ∧ ∀ m ∈ inner, inside m) ∧
      c.memo <+: ((visit s (depth + 1) id).run c).2.memo := by
  rw [run_visit, run_watch]
  cases hv : c.memo.lookup id with
  | some v => exact ⟨[], by rw [List.append_nil]; rfl, Or.inl rfl, List.prefix_rfl⟩
  | none =>
    cases hn : s.graph.node? id with
    | none => exact ⟨[], by rw [List.append_nil]; rfl, Or.inl rfl, List.prefix_rfl⟩
    | some n =>
      dsimp only
      split
      · exact ⟨[], by rw [List.append_nil]; rfl, Or.inl rfl, List.prefix_rfl⟩
      · have hsources := watches_originValue fun e he => h e.source (Graph.depends_source hn he)
        obtain ⟨inner, run, hinner, grows⟩ := hsources.during id c notes known
        rw [run_bind, run_bind, run]
        rcases hrun : (during id _).run c with ⟨e | v, c'⟩
        · rw [hrun] at grows
          exact ⟨id :: inner, rfl, Or.inr ⟨inner, rfl, hinner⟩, grows⟩
        · rw [hrun] at grows
          refine ⟨id :: inner, rfl, Or.inr ⟨inner, rfl, hinner⟩, ?_⟩
          exact grows.trans (List.prefix_append _ _)

/-- Where all that the nodes in `inside` depend on is inside as well or settled, the notes of a
visit stay inside. -/
theorem watches_visit (hclosed : ∀ m, inside m → ∀ other, s.graph.Depends m other →
      inside other ∨ settled other) (h : inside id ∨ settled id) (depth : Nat) :
    Watches s settled inside (visit s depth id) (watch s depth id) := by
  induction depth generalizing id with
  | zero =>
    rw [visit, watch]
    exact watches_throw ⟨id⟩
  | succ depth ih =>
    rcases h with h | h
    · intro c notes known
      obtain ⟨new, run, hnew, grows⟩ :=
        exists_run_watch (fun other hd => ih (hclosed id h other hd)) c notes known
      refine ⟨new, run, fun m hm => ?_, grows⟩
      rcases hnew with rfl | ⟨inner, rfl, hinner⟩
      · cases hm
      · rcases List.mem_cons.1 hm with rfl | hm
        · exact h
        · exact hinner m hm
    · exact watches_settled h depth depth

/-- Where all that a node depends on is known, a visit of it notes nothing but the node, and goes
two levels down at most, however deep it may go. -/
theorem exists_run_watch_shallow {c : Context}
    (known : ∀ m ∈ s.graph.ids, s.graph.Depends id m → IsKnown (c.memo, s.failed) m)
    (depth depth' : Nat) (notes : List String) : ∃ new, new <+: [id] ∧
      (watch s (depth' + 2) id).run (c, notes) = (((visit s (depth + 2) id).run c).1,
        (((visit s (depth + 2) id).run c).2, notes ++ new)) := by
  have hsources (other : String) (hd : s.graph.Depends id other) :
      Watches s (s.graph.Depends id) (fun _ => False) (visit s (depth + 1) other)
        (watch s (depth' + 1) other) := watches_settled hd depth depth'
  obtain ⟨new, run, hnew, -⟩ := exists_run_watch hsources c notes known
  refine ⟨new, ?_, run⟩
  rcases hnew with rfl | ⟨inner, rfl, hinner⟩
  · exact List.nil_prefix
  · rw [List.eq_nil_iff_forall_not_mem.2 hinner]

theorem run_visit_shallow {c : Context}
    (known : ∀ m ∈ s.graph.ids, s.graph.Depends id m → IsKnown (c.memo, s.failed) m)
    (depth : Nat) : (visit s (depth + 2) id).run c = (visit s 2 id).run c := by
  obtain ⟨_, -, run⟩ := exists_run_watch_shallow known depth depth []
  obtain ⟨_, -, run'⟩ := exists_run_watch_shallow known 0 depth []
  rw [run'] at run
  obtain ⟨hanswer, hcontext⟩ := Prod.mk.inj run
  exact (Prod.ext hanswer (Prod.mk.inj hcontext).1).symm

/-! ### Evaluation -/

/-- What the members of a node's component depend on is known when it is the node's turn, unless it
lies in the component. -/
theorem isKnown_of_depends {before after : List String} {w other : String}
    (horder : g.order g.ids = before ++ id :: after) (hw : g.digraph.Mutual id w)
    (hd : g.Depends w other) (hother : other ∈ g.ids) (hmutual : ¬ g.digraph.Mutual id other) :
    IsKnown (before.foldl (settleNode g record) ([], [])) other := by
  have hreach : ReflTransGen g.digraph.Arrow other id :=
    .head (Graph.arrow_of_depends hd hother) hw.2
  exact isKnown_of_mem (Graph.mem_before_of_reaches horder hother hreach hmutual) hother

theorem exists_length_of_order {before after : List String}
    (horder : g.order g.ids = before ++ id :: after) : ∃ k, g.nodes.length = k + 1 := by
  have hmem : id ∈ g.order g.ids := by simp [horder]
  refine Nat.exists_eq_succ_of_ne_zero ?_
  rw [← Graph.length_ids]
  exact (List.length_pos_of_mem (Graph.mem_order_iff.1 hmem).1).ne'

/-- **Sources are settled first.**  Take any graph, any record, and any node in the order in which
evaluation asks for the nodes, with what is known when its turn comes.  Every node that it depends
on and that lies outside its component, all edges counted, is known by then: there is a value of it,
or it is known to have none.  The question that is asked now is the watched one, and it begins to
compute values in that component only.  Where there are no cycles, all that the node depends on is
known, the question begins to compute no value but that of the node itself, and a descent of two
levels would do. -/
theorem sources_settled_first (record : Value) {before after : List String}
    (horder : g.order g.ids = before ++ id :: after) :
    let known := before.foldl (settleNode g record) ([], [])
    let s : Setting := ⟨g, record, known.2⟩
    let watched := (watch s (g.nodes.length + 1) id).run (⟨known.1, []⟩, [])
    let notes := watched.2.2
    settle g record = after.foldl (settleNode g record) (settleNode g record known id) ∧
    (∀ other ∈ g.ids, g.Depends id other → ¬ g.digraph.Mutual id other → IsKnown known other) ∧
    (compute s id).run known.1 = (watched.1, watched.2.1.memo) ∧
    (∀ m ∈ notes, g.digraph.Mutual id m) ∧
    ((∀ v, ¬ TransGen g.digraph.Arrow v v) →
      (∀ other ∈ g.ids, g.Depends id other → IsKnown known other) ∧
      notes <+: [id] ∧
      (ask s id).run ⟨known.1, []⟩ = (visit s 2 id).run ⟨known.1, []⟩) := by
  intro known s watched notes
  have hrefl : g.digraph.Mutual id id := .refl id
  have hsources (other : String) (hother : other ∈ g.ids) (hd : g.Depends id other)
      (hmutual : ¬ g.digraph.Mutual id other) : IsKnown known other :=
    isKnown_of_depends horder hrefl hd hother hmutual
  -- from inside the component, one step leads out of it to what is known
  let outside (m : String) : Prop :=
    ¬ g.digraph.Mutual id m ∧ ∃ w, g.digraph.Mutual id w ∧ g.Depends w m
  have hwatches : Watches s outside (g.digraph.Mutual id) (visit s (g.nodes.length + 1) id)
      (watch s (g.nodes.length + 1) id) := by
    refine watches_visit (fun m hm other hd => ?_) (Or.inl hrefl) _
    by_cases hmutual : g.digraph.Mutual id other
    · exact Or.inl hmutual
    · exact Or.inr ⟨hmutual, m, hm, hd⟩
  obtain ⟨new, run, hnew, -⟩ := hwatches ⟨known.1, []⟩ [] fun m hm ⟨hmutual, w, hw, hd⟩ =>
    isKnown_of_depends horder hw hd hm hmutual
  have hnotes : notes = new := by
    show ((watch s (g.nodes.length + 1) id).run (⟨known.1, []⟩, [])).2.2 = new
    rw [run, List.nil_append]
  refine ⟨?_, hsources, ?_, hnotes ▸ hnew, fun hcycles => ?_⟩
  · rw [settle, horder, List.foldl_append, List.foldl_cons]
  · show _ = (((watch s (g.nodes.length + 1) id).run (⟨known.1, []⟩, [])).1,
      ((watch s (g.nodes.length + 1) id).run (⟨known.1, []⟩, [])).2.1.memo)
    rw [run]
    rfl
  · have hall (other : String) (hother : other ∈ g.ids) (hd : g.Depends id other) :
        IsKnown known other := by
      refine hsources other hother hd fun hmutual => hcycles id ?_
      exact .tail' hmutual.1 (Graph.arrow_of_depends hd hother)
    obtain ⟨k, hk⟩ := exists_length_of_order horder
    obtain ⟨new', hnew', run'⟩ :=
      exists_run_watch_shallow (s := s) (c := ⟨known.1, []⟩) hall k k []
    refine ⟨hall, ?_, ?_⟩
    · have heq : notes = new' := by
        show ((watch s (g.nodes.length + 1) id).run (⟨known.1, []⟩, [])).2.2 = new'
        rw [hk, run', List.nil_append]
      rwa [heq]
    · show (visit s (g.nodes.length + 1) id).run _ = _
      rw [hk]
      exact run_visit_shallow (s := s) (c := ⟨known.1, []⟩) hall k

/-- A sum that goes into a product that goes into an output, each listed before what it needs. -/
def backwards : Graph where
  nodes := [
    ⟨"out", none, .output "out" .null⟩,
    ⟨"product", none, .operator "multiply" none []⟩,
    ⟨"sum", none, .operator "add" none []⟩,
    ⟨"two", none, .const (.int 2) .number none⟩]
  edges := [
    ⟨none, "product", none, "out", none⟩,
    ⟨none, "sum", none, "product", some "a"⟩,
    ⟨none, "two", none, "product", some "b"⟩,
    ⟨none, "two", none, "sum", some "a"⟩,
    ⟨none, "two", none, "sum", some "b"⟩]
  metadata := []

theorem sources_settled_first_backwards :
    let known := ["two", "sum"].foldl (settleNode backwards .null) ([], [])
    backwards.order backwards.ids = ["two", "sum"] ++ "product" :: ["out"] ∧
    (∀ v, ¬ TransGen backwards.digraph.Arrow v v) ∧
    IsKnown known "two" ∧ IsKnown known "sum" ∧
    ((watch ⟨backwards, .null, known.2⟩ 5 "product").run (⟨known.1, []⟩, [])).2.2 <+:
      ["product"] := by
  intro known
  have horder : backwards.order backwards.ids = ["two", "sum"] ++ "product" :: ["out"] := by
    decide +kernel
  have hcycles : ∀ v, ¬ TransGen backwards.digraph.Arrow v v :=
    (Digraph.hasCycle_eq_false_iff Graph.closed_digraph).1 (by decide +kernel)
  obtain ⟨-, -, -, -, hacyclic⟩ := sources_settled_first .null horder
  obtain ⟨hknown, hnotes, -⟩ := hacyclic hcycles
  exact ⟨horder, hcycles, hknown "two" (by decide) (by decide +kernel),
    hknown "sum" (by decide) (by decide +kernel), hnotes⟩

end NodeFlow.Preview
