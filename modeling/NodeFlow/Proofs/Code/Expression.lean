import NodeFlow.Proofs.Code.Inlining
import NodeFlow.Proofs.Preview.Ask

/-!
# Evaluation and generated code read the same program

The expression for an output of a node that is not circular is its unfolding written out, the same
tree that the node's value comes from (`inline_after`).  Expressions of circular nodes depend on
where the run that wrote them came in, but the memo never lets them into the expression of any other
node, nor does it ever lose the mark of a cycle: while an expression is asked for, each one in the
memo is right (`IsText`), also when the asking comes to an end at a constant that cannot be written.
-/

open Relation NodeFlow.Text NodeFlow.Outcome

namespace NodeFlow

namespace Graph

/-- The expression of `id` has that of `other` in it: `id` depends on `other` and is no loop, of
whose inputs nothing is written. -/
def WritesOut (g : Graph) (id other : String) : Prop := g.isLoop id = false ∧ g.Depends id other

/-- A node from which a cycle without loops can be reached on a way without loops. -/
def Endless (g : Graph) (id : String) : Prop := ReachesCycle g.WritesOut id

end Graph

namespace Code

variable {g : Graph} {id : String} {handle : Option String} {n : Node} {key : Key} {text : String}
  {way : List Key} {keys : List (Option Key)} {texts parts : List String} {memo memo' : Memo}

/-! ### Right expressions -/

/-- A right expression for an output: the exact one unless the node is circular, and one with the
mark of a cycle where its parts never end. -/
structure IsText (g : Graph) (key : Key) (text : String) : Prop where
  expression : ¬ g.Circular key.1 → g.expression key = .ok text
  marked : g.Endless key.1 → Occurs cycleMark text

/-- A right expression of what comes in. -/
def IsPart (g : Graph) : Option Key → String → Prop
  | none, text => text = nothing
  | some key, text => IsText g key text

/-- A memo in which each expression is right. -/
def Right (g : Graph) (memo : Memo) : Prop := ∀ entry ∈ memo, IsText g entry.1 entry.2

theorem Right.lookup (h : Right g memo) (hkey : memo.lookup key = some text) :
    IsText g key text :=
  h (key, text) (mem_of_lookup hkey)

theorem Right.cons (h : Right g memo) (htext : IsText g key text) :
    Right g ((key, text) :: memo) :=
  List.forall_mem_cons.2 ⟨htext, h⟩

theorem right_nil (g : Graph) : Right g [] := nofun

theorem isText_absent (hn : g.node? id = none) : IsText g (id, handle) nothing where
  expression _ := Graph.expression_of_absent hn
  marked h := by
    obtain ⟨other, ⟨-, hd⟩, -⟩ := reachesCycle_iff.1 h
    obtain ⟨n, hn'⟩ := hd.exists_node
    rw [hn] at hn'
    cases hn'

/-- An output that is met again is one of a circular node, and so it may be marked. -/
theorem isText_cycleMark (h : g.Circular key.1) : IsText g key cycleMark where
  expression hc := absurd h hc
  marked _ := .refl cycleMark

/-- The parts of a node that is not circular are the exact ones, if they are right. -/
theorem forall₂_bringing_of_isPart (hc : ¬ g.Circular id) (hn : g.node? id = some n)
    (hparts : List.Forall₂ (IsPart g) ((g.origin n).wires.map wanted) parts) :
    List.Forall₂ (fun e part => bringing g.expression e = .ok part) (g.origin n).wires parts := by
  rw [List.forall₂_map_left_iff] at hparts
  have hsources : ∀ e ∈ (g.origin n).wires, ∀ e' ∈ e, ¬ g.Circular e'.source := by
    rintro _ he e' rfl
    exact Graph.not_circular_source hc hn (Origin.mem_edges_iff.2 he)
  refine ((List.forall₂_and_left _ _).2 ⟨hsources, hparts⟩).imp ?_
  rintro e part ⟨hsource, hpart⟩
  cases e with
  | none => exact congrArg _ (Eq.symm hpart)
  | some e => exact IsText.expression hpart (hsource e rfl)

/-- An expression that is made of right ones is right. -/
theorem isText_written (hn : g.node? id = some n)
    (hparts : List.Forall₂ (IsPart g) ((g.origin n).wires.map wanted) parts)
    (htext : written handle (g.origin n) parts = .ok text) : IsText g (id, handle) text where
  expression hc := by
    rw [Graph.expression_of_node hc hn]
    exact composed_eq_ok_iff.2 ⟨parts, forall₂_bringing_of_isPart hc hn hparts, htext⟩
  marked h := by
    obtain ⟨other, ⟨hloop, hd⟩, hother⟩ := reachesCycle_iff.1 h
    obtain ⟨e, he, rfl⟩ := (Graph.depends_iff hn).1 hd
    rw [Graph.isLoop, hn] at hloop
    rw [List.forall₂_map_left_iff] at hparts
    obtain ⟨part, hpart, occurs⟩ := Graph.occurs_written hloop hparts he htext
    exact (IsText.marked hpart hother).trans occurs

/-- The handle under which an expression is kept does not matter. -/
theorem IsText.of_kept (hn : g.node? id = some n)
    (h : IsText g (id, keptHandle (g.origin n) handle) text) : IsText g (id, handle) text where
  expression hc := by
    rw [← h.expression hc, Graph.expression_of_node hc hn, Graph.expression_of_node hc hn,
      composed, composed]
    exact congrArg _ (funext fun parts => (written_keptHandle _ handle parts).symm)
  marked := h.marked

/-- The outputs whose expressions are being written lead to those that are asked for. -/
def Leads (g : Graph) (way : List Key) (keys : List (Option Key)) : Prop :=
  ∀ k ∈ way, ∀ key, some key ∈ keys → TransGen g.Depends k.1 key.1

theorem Leads.tail {first : Option Key} (h : Leads g way (first :: keys)) : Leads g way keys :=
  fun k hk key hkey => h k hk key (List.mem_cons_of_mem first hkey)

theorem Leads.inner (h : Leads g way (some (id, handle) :: keys)) (hn : g.node? id = some n)
    (kept : Option String) : Leads g ((id, kept) :: way) ((g.origin n).wires.map wanted) := by
  intro k hk key hkey
  have hd := Graph.depends_of_wanted hn hkey
  rcases List.mem_cons.1 hk with rfl | hk
  · exact .single hd
  · exact (h k hk (id, handle) List.mem_cons_self).tail hd

/-- What a run writes is right, if the memo was, and so is the memo afterwards. -/
theorem Inlining.right (h : Inlining g way keys memo texts memo') (hmemo : Right g memo)
    (leads : Leads g way keys) : Right g memo' ∧ List.Forall₂ (IsPart g) keys texts := by
  induction h with
  | done => exact ⟨hmemo, .nil⟩
  | unwired _ ih =>
    obtain ⟨hmemo', hrest⟩ := ih hmemo leads.tail
    exact ⟨hmemo', .cons rfl hrest⟩
  | absent hn _ ih =>
    obtain ⟨hmemo', hrest⟩ := ih hmemo leads.tail
    exact ⟨hmemo', .cons (isText_absent hn) hrest⟩
  | known hn hlookup _ ih =>
    obtain ⟨hmemo', hrest⟩ := ih hmemo leads.tail
    exact ⟨hmemo', .cons (.of_kept hn (hmemo.lookup hlookup)) hrest⟩
  | again hn hlookup hway _ ih =>
    obtain ⟨hmemo', hrest⟩ := ih hmemo leads.tail
    -- An output that is met again leads to itself, so its node lies on a cycle.
    have cycle := leads _ hway _ List.mem_cons_self
    exact ⟨hmemo', .cons (isText_cycleMark (Graph.OnCycle.circular cycle)) hrest⟩
  | @fresh way id handle n text parts _ _ _ _ _ hn hlookup hway _ htext _ ihinner ih =>
    obtain ⟨hmemo', hparts⟩ := ihinner hmemo (leads.inner hn _)
    have hright : IsText g (id, keptHandle (g.origin n) handle) text :=
      isText_written hn hparts htext
    -- The memo gets the expression of a node on a cycle too, but only one that is right by then.
    obtain ⟨hmemo'', hrest⟩ := ih (hmemo'.cons hright) leads.tail
    exact ⟨hmemo'', .cons (.of_kept hn hright) hrest⟩

/-- A run that stops leaves a right memo. -/
theorem Stopping.right (h : Stopping g way keys memo memo') (hmemo : Right g memo)
    (leads : Leads g way keys) : Right g memo' := by
  induction h with
  | later hfirst _ ih =>
    have hfirst' := hfirst.right hmemo fun k hk key hkey =>
      leads k hk key (List.mem_singleton.1 hkey ▸ List.mem_cons_self)
    exact ih hfirst'.1 leads.tail
  | inside hn _ _ _ ih => exact ih hmemo (leads.inner hn _)
  | here hn _ _ inner _ => exact (inner.right hmemo (leads.inner hn _)).1

/-! ### Queries -/

/-- The memo after some expressions were asked for one after the other. -/
def inlined (g : Graph) (queries : List Key) : Memo :=
  queries.foldl (fun memo key => ((inline g key).run memo).2) []

/-- What holds of the empty memo and is kept by each query holds of the memo after all of them. -/
theorem inlined_induction (Q : Memo → Prop) (hnil : Q [])
    (step : ∀ {memo}, Q memo → ∀ key, Q ((inline g key).run memo).2) (queries : List Key) :
    Q (inlined g queries) := by
  have hfold (queries : List Key) (memo : Memo) (h : Q memo) :
      Q (queries.foldl (fun memo key => ((inline g key).run memo).2) memo) := by
    induction queries generalizing memo with
    | nil => exact h
    | cons key rest ih => exact ih _ (step h key)
  exact hfold queries [] hnil

/-- A query has what all expressions inherit, if the memo has it, and so has the memo afterwards. -/
theorem inline_invariant {P : String → String → Prop} (hP : Inherited g P)
    (hmemo : ∀ entry ∈ memo, P entry.1.1 entry.2) (key : Key) :
    (∀ text, ((inline g key).run memo).1 = .ok text → P key.1 text) ∧
      ∀ entry ∈ ((inline g key).run memo).2, P entry.1.1 entry.2 := by
  have hends := inlined_or_stopped (g := g) key memo
  rcases hrun : (inline g key).run memo with ⟨c | text, memo'⟩
  · rw [hrun] at hends
    exact ⟨nofun, Stopping.invariant hP hends hmemo⟩
  · rw [hrun] at hends
    obtain ⟨hmemo', hparts⟩ := Inlining.invariant hP hends hmemo
    cases hparts with
    | cons htext _ =>
      refine ⟨fun text' h => ?_, hmemo'⟩
      obtain rfl := Except.ok.inj h
      exact htext

/-- A query in a right memo is answered with a right expression and leaves a right memo. -/
theorem right_inline (hmemo : Right g memo) (key : Key) :
    (∀ text, ((inline g key).run memo).1 = .ok text → IsText g key text) ∧
      Right g ((inline g key).run memo).2 := by
  have hends := inlined_or_stopped (g := g) key memo
  rcases hrun : (inline g key).run memo with ⟨c | text, memo'⟩
  · rw [hrun] at hends
    exact ⟨nofun, Stopping.right hends hmemo nofun⟩
  · rw [hrun] at hends
    obtain ⟨hmemo', hparts⟩ := Inlining.right hends hmemo nofun
    cases hparts with
    | cons htext _ =>
      refine ⟨fun text' h => ?_, hmemo'⟩
      obtain rfl := Except.ok.inj h
      exact htext

/-- A query that is not answered has come upon a constant that cannot be written. -/
theorem unwritable_of_inline (h : ((inline g key).run memo).1 = .error ⟨⟩) :
    g.Unwritable key.1 := by
  have hends := inlined_or_stopped (g := g) key memo
  rcases hrun : (inline g key).run memo with ⟨c | text, memo'⟩
  · rw [hrun] at hends
    obtain ⟨key', hkey, hunwritable⟩ := Stopping.unwritable hends
    obtain rfl : key' = key := by simpa using hkey
    exact hunwritable
  · rw [hrun] at h
    cases h

/-- The expression for an output, everything written out. -/
def fullText (g : Graph) (key : Key) : Spelling := ((inline g key).run []).1

/-- Whatever is in a right memo, a query about a node that is not circular has the exact answer. -/
theorem inline_eq_expression (hmemo : Right g memo) (hc : ¬ g.Circular key.1) :
    ((inline g key).run memo).1 = g.expression key := by
  cases htext : ((inline g key).run memo).1 with
  | ok text => exact (((right_inline hmemo key).1 text htext).expression hc).symm
  | error c => exact ((Graph.expression_eq_error_iff hc).2 (unwritable_of_inline htext)).symm

theorem fullText_eq_expression (h : ¬ g.Circular key.1) : fullText g key = g.expression key :=
  inline_eq_expression (right_nil g) h

theorem right_inlined (g : Graph) (queries : List Key) : Right g (inlined g queries) :=
  inlined_induction (Right g) (right_nil g) (fun hmemo key => (right_inline hmemo key).2) queries

/-- **Evaluation and generated code read the same program.**  After any queries, asking for the
expression for an output of a node ends, with the expression or at a constant among the nodes that
the node depends on which cannot be written.  If the node is not circular, it has one unfolding, and
the expression is that unfolding written out, with no mark of a cycle, as the node's value is what
that unfolding amounts to, after any questions and for any record.  It is missing exactly if such a
constant is there.  If a cycle without loops can be reached from the node on a way without loops,
the mark of a cycle stands in the expression. -/
theorem inline_after (g : Graph) (before : List Key) (id : String) (handle : Option String) :
    let run := (inline g (id, handle)).run (inlined g before)
    (match run with
      | (.ok text, memo) => Inlining g [] [some (id, handle)] (inlined g before) [text] memo
      | (.error _, memo) =>
        g.Unwritable id ∧ Stopping g [] [some (id, handle)] (inlined g before) memo) ∧
    (¬ g.Circular id → ∃ t, (∀ t', g.Unfolds id t' ↔ t' = t) ∧ run.1 = t.text handle ∧
      (run.1 = .error ⟨⟩ ↔ g.Unwritable id) ∧
      (∀ text, run.1 = .ok text → ¬ Occurs cycleMark text) ∧
      ∀ (record : Value) (questions : List String),
        ((Preview.ask ⟨g, record, []⟩ id).run (Preview.asked ⟨g, record, []⟩ questions)).1 =
          .ok (t.value record)) ∧
    (g.Endless id → ∀ text, run.1 = .ok text → Occurs cycleMark text) := by
  intro run
  have hright := right_inlined g before
  refine ⟨?_, fun hc => ?_, fun h text htext => ((right_inline hright _).1 text htext).marked h⟩
  · have hends : EndsAt _ _ _ _ run := inlined_or_stopped (g := g) (id, handle) (inlined g before)
    rcases hrun : run with ⟨c | text, memo⟩
    · rw [hrun] at hends
      exact ⟨unwritable_of_inline (congrArg Prod.fst hrun), hends⟩
    · rw [hrun] at hends
      exact hends
  obtain ⟨t, ht⟩ := Graph.exists_unfolds hc
  have hexpression : run.1 = g.expression (id, handle) := inline_eq_expression hright hc
  have houtcome : run.1 = t.text handle :=
    hexpression.trans (Graph.expression_of_unfolds ht)
  refine ⟨t, fun t' => ⟨fun ht' => ht'.unique ht, ?_⟩, houtcome, ?_, fun text htext => ?_,
    fun record questions => ?_⟩
  · rintro rfl
    exact ht
  · rw [hexpression]
    exact Graph.expression_eq_error_iff hc
  · exact (ht.oneLine_text (houtcome.symm.trans htext)).not_occurs (by decide)
  · obtain ⟨answer, isAnswer, runs⟩ := Preview.exists_run_ask (s := ⟨g, record, []⟩) nofun id
    obtain ⟨memo, hrun, -⟩ := runs questions
    rw [hrun, isAnswer.value hc]
    exact congrArg _ (Graph.value_of_unfolds ht)

/-- A constant that is an integer of too many digits. -/
def lengthy : Graph where
  nodes := [⟨"big", none, .const (.int (power 10 4300)) .number none⟩]
  edges := []
  metadata := []

/-- The constant depends on nothing and has a value, but no expression. -/
theorem lengthy_has_no_expression :
    ¬ lengthy.Circular "big" ∧
      ((Preview.ask ⟨lengthy, .null, []⟩ "big").run .empty).1 = .ok (.int (power 10 4300)) ∧
      fullText lengthy ("big", none) = .error ⟨⟩ := by
  refine ⟨fun h => ?_, by decide +kernel, by decide +kernel⟩
  have hnone : lengthy.unfolding? "big" = none := Graph.unfolding?_eq_none_iff.2 h
  have hsome : (lengthy.unfolding? "big").isSome := by decide +kernel
  rw [hnone] at hsome
  cases hsome

end Code

end NodeFlow
