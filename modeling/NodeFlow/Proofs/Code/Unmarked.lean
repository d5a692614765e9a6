import NodeFlow.Proofs.Code.Definition
import NodeFlow.Proofs.Code.Identifier

/-!
# Lines without a mark

In a graph without cycles every expression is on one line, whatever names it is written over.  So
the mark of a cycle, which ends one line and goes on in the next, stands nowhere in the generated
code: neither in the lines before the function (`oneLine_header`) nor in those of its body
(`IsProgram.plain`).
-/

namespace NodeFlow.Code

open Text

variable {g : Graph} {known bound : Bound} {key : Key} {id text : String} {p : Program}
  {b : LoopBlock} {root : Root} {loop : String} {number : Nat}

/-! ### Names -/

theorem IsProgram.oneLine_name (h : IsProgram g p) {a : Assignment} (ha : a ∈ p.assignments) :
    OneLine a.name := by
  obtain ⟨t, hbase, htext⟩ := h.temporaries a ha
  rw [← htext]
  exact (slugText_of_base hbase).oneLine

/-! ### Expressions -/

/-- All names are on one line. -/
def PlainNames (bound : Bound) : Prop := ∀ e ∈ bound, OneLine e.2

/-- The names that a part of a program is written over are on one line. -/
theorem IsProgram.plainNames (h : IsProgram g p)
    (hbound : bound ⊆ p.assignments.map Assignment.entry) : PlainNames bound := by
  intro e he
  obtain ⟨a, ha, rfl⟩ := List.mem_map.1 (hbound he)
  exact h.oneLine_name ha

theorem Renders.oneLine {spelling : Spelling} (h : Renders g bound key spelling)
    (hbound : PlainNames bound) {text : String} (htext : spelling = .ok text) : OneLine text := by
  induction h generalizing text with
  | @named id handle name hb => exact Except.ok.inj htext ▸ hbound (id, name) (mem_of_lookup hb)
  | absent => exact Except.ok.inj htext ▸ Graph.oneLine_nothing
  | @node id handle n _ _ T _ ih =>
    obtain ⟨parts, hparts, htext⟩ := composed_eq_ok_iff.1 htext
    refine Graph.oneLine_written n (forall_of_bringing Graph.oneLine_nothing hparts
      fun e he part hpart => ?_) htext
    exact ih e (Origin.mem_edges_iff.2 he) hpart

theorem oneLine_render (hg : g.Acyclic) (hbound : PlainNames bound)
    (htext : render g bound key = .ok text) : OneLine text :=
  (renders_render hg bound key).oneLine hbound htext

theorem oneLine_assignment (hg : g.Acyclic) (hbound : PlainNames bound)
    (htext : assignment g bound id = .ok text) : OneLine text := by
  cases hn : g.node? id with
  | none =>
    rw [assignment_of_absent hn] at htext
    exact Except.ok.inj htext ▸ Graph.oneLine_nothing
  | some n =>
    rw [assignment_of_node hg hn] at htext
    obtain ⟨parts, hparts, htext⟩ := composed_eq_ok_iff.1 htext
    exact Graph.oneLine_written n (forall_of_bringing Graph.oneLine_nothing hparts
      fun e _ part hpart => oneLine_render hg hbound hpart) htext

theorem IsText.oneLine (hg : g.Acyclic) (h : IsText g key text) : OneLine text := by
  obtain ⟨t, ht⟩ := Graph.exists_unfolds (hg.not_circular key.1)
  have htext := h.expression (hg.not_circular key.1)
  rw [Graph.expression_of_unfolds ht] at htext
  exact ht.oneLine_text htext

theorem IsInput.oneLine (hg : g.Acyclic) {default : String} {e : Option Edge}
    (h : IsInput g default e text) (hdefault : OneLine default) : OneLine text := by
  cases e with
  | none =>
    obtain rfl : text = default := h
    exact hdefault
  | some e => exact IsText.oneLine hg h

/-! ### Lines -/

/-- A statement whose parts are on one line. -/
def Statement.Plain : Statement → Prop
  | assign target expression => OneLine target ∧ OneLine expression
  | increment target => OneLine target
  | other text => OneLine text

instance : DecidablePred Statement.Plain
  | .assign target expression => inferInstanceAs (Decidable (OneLine target ∧ OneLine expression))
  | .increment target => inferInstanceAs (Decidable (OneLine target))
  | .other text => inferInstanceAs (Decidable (OneLine text))

theorem Line.oneLine_text {l : Line} (h : l.statement.Plain) : OneLine l.text := by
  obtain ⟨depth, region, s, bound⟩ := l
  have indent : OneLine (indentation depth) := by
    rw [indentation, oneLine_ofList]
    simp
  refine indent.append ?_
  cases s with
  | assign target expression =>
    refine (h.1.append (by decide)).append ?_
    split
    · decide
    · exact h.2
  | increment target => exact OneLine.append h (by decide)
  | other text => exact h

theorem oneLine_resultTarget (root : Root) : OneLine (resultTarget root) :=
  (OneLine.append (by decide) (oneLine_quote root.label)).append (by decide)

theorem oneLine_test (htext : OneLine text) : OneLine ("if bool(" ++ text ++ "):") :=
  (OneLine.append (by decide) htext).append (by decide)

/-- What stands on a line of a program is on one line, if the graph has no cycles. -/
theorem IsWritten.plain (hg : g.Acyclic) (h : IsProgram g p) {l : Line}
    (hbound : l.bound ⊆ p.assignments.map Assignment.entry) (hl : IsWritten g p l) :
    l.statement.Plain := by
  have hfunction : ∀ s ∈ functionFrame, s.Plain := by decide
  have hblock : ∀ entry ∈ blockFrame, entry.2.Plain := by decide
  have hnames := h.plainNames hbound
  cases hl with
  | frame hs => exact hfunction _ hs
  | inBlock hs => exact hblock _ hs
  | free ha hexpression =>
    exact ⟨h.oneLine_name (List.mem_append_left _ ha), oneLine_assignment hg hnames hexpression⟩
  | update ha _ hexpression =>
    exact ⟨h.oneLine_name ha, oneLine_assignment hg hnames hexpression⟩
  | initial ha => exact ⟨h.oneLine_name ha, Graph.oneLine_nothing⟩
  | direct _ htext => exact ⟨oneLine_resultTarget _, oneLine_render hg hnames htext⟩
  | result _ _ htext => exact ⟨by decide, oneLine_render hg hnames htext⟩
  | last => exact ⟨oneLine_resultTarget _, by decide⟩
  | passInput _ htext => exact ⟨by decide, htext.oneLine hg (by decide)⟩
  | test _ _ htext => exact oneLine_test (oneLine_render hg hnames htext)
  | @head _ _ condition cap limit hcondition hcap =>
    have condition : OneLine condition := hcondition.oneLine hg (by decide)
    have cap : OneLine cap := hcap.oneLine hg (slugText_toString limit).oneLine
    exact (((OneLine.append (by decide) condition).append (by decide)).append cap).append
      (by decide)

/-- In a graph without cycles no line of a program is broken by a mark. -/
theorem IsProgram.plain (hg : g.Acyclic) (h : IsProgram g p) :
    ∀ l ∈ p.layout, l.statement.Plain := fun _ hl =>
  (h.isWritten (isLine_of_mem hl)).plain hg h (h.line_bound_subset (isLine_of_mem hl))

theorem oneLine_commonLines : ∀ text ∈ commonLines, OneLine text := by decide +kernel

theorem oneLine_fallbackLines : ∀ text ∈ fallbackLines, OneLine text :=
  List.forall_mem_cons.2 ⟨by decide, List.forall_mem_append.2 ⟨oneLine_commonLines, by decide⟩⟩

theorem oneLine_header (g : Graph) : ∀ text ∈ header g, OneLine text := by
  have note : ∀ text ∈ divisionNote, OneLine text := by decide +kernel
  rw [header]
  refine List.forall_mem_cons.2 ⟨by decide, List.forall_mem_append.2 ⟨?_, oneLine_commonLines⟩⟩
  split
  · exact note
  · exact List.forall_mem_nil _

end NodeFlow.Code
