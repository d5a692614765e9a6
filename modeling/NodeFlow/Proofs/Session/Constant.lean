import NodeFlow.Proofs.Code.Expression
import NodeFlow.Proofs.Session.Ids
import NodeFlow.Proofs.Value.Constant

/-!
# Constants that were edited

An edited constant means the same to evaluation and to generated code (`constants_agree`): both read
the value that the raw input became, and the code is this value written by its own type.  An integer
of too many digits goes into a constant but not into code (`lengthy_constant_disagrees`).
-/

namespace NodeFlow

open Constant

variable {g g' : Graph} {id : String} {n n' : Node} {v old raw : Value} {t own : Dtype}
  {dtype : Option Dtype} {label : Option String}

/-! ### The node of a constant -/

theorem edited_of_const (hcontent : n.content = .const old own label) (raw : Value)
    (dtype : Option Dtype) : Action.edited raw dtype n =
      (coerce (dtype.getD own) raw).map fun v =>
        { n with content := .const v (dtype.getD own) label } := by
  unfold Action.edited
  rw [hcontent]
  dsimp only
  cases coerce (dtype.getD own) raw <;> rfl

theorem content_edited (hcontent : n.content = .const old own label)
    (h : Action.edited raw dtype n = .ok n') :
    ∃ v, coerce (dtype.getD own) raw = .ok v ∧
      n'.content = .const v (dtype.getD own) label := by
  rw [edited_of_const hcontent] at h
  obtain ⟨v, hv, rfl⟩ := Outcome.map_eq_ok_iff.1 h
  exact ⟨v, hv, rfl⟩

/-- Editing a constant by the value that it has got leaves it as it is. -/
theorem edited_edited (hv : coerce (dtype.getD own) raw = .ok v)
    (hcontent : n'.content = .const v (dtype.getD own) label) :
    Action.edited v dtype n' = .ok n' := by
  have htype : dtype.getD (dtype.getD own) = dtype.getD own := by cases dtype <;> rfl
  rw [edited_of_const hcontent, htype, (fits_coerce hv).coerce_eq]
  show Except.ok { n' with content := .const v (dtype.getD own) label } = Except.ok n'
  rw [← hcontent]

namespace Graph

/-- The last node of a name is looked up in lists whose nodes go by the same names. -/
theorem find?_of_forall₂ {R : Node → Node → Prop} {nodes nodes' : List Node}
    (h : List.Forall₂ R nodes nodes') (hid : ∀ n n', R n n' → n'.id = n.id)
    (hn : nodes.find? (·.id == id) = some n) :
    ∃ n', nodes'.find? (·.id == id) = some n' ∧ R n n' := by
  induction h with
  | nil => cases hn
  | @cons m m' nodes nodes' hfirst _ ih =>
    cases hm : m.id == id with
    | true =>
      rw [List.find?_cons_of_pos (p := fun n : Node => n.id == id) hm] at hn
      obtain rfl := Option.some.inj hn
      exact ⟨m', List.find?_cons_of_pos (by rwa [hid _ _ hfirst]), hfirst⟩
    | false =>
      rw [List.find?_cons_of_neg (by simp [hm])] at hn
      obtain ⟨n', hn', hrest⟩ := ih hn
      exact ⟨n', by rwa [List.find?_cons_of_neg (by simp [hid _ _ hfirst, hm])], hrest⟩

theorem node?_editConst (hn : g.node? id = some n)
    (h : (Action.editConst id raw dtype).apply g = .ok g') :
    ∃ n', Action.edited raw dtype n = .ok n' ∧ g'.node? id = some n' := by
  obtain ⟨-, hnodes⟩ := editConst_eq_ok_iff.1 h
  obtain ⟨n', hn', hedited⟩ := find?_of_forall₂ (List.forall₂_reverse_iff.2 hnodes)
    (fun _ _ h => (editConst_keeps h).1) hn
  rw [if_pos (beq_iff_eq.2 (node?_id hn))] at hedited
  exact ⟨n', hedited, hn'⟩

/-- Among nodes with names of their own, an edit is one of the node that is named. -/
theorem editConst_of_nodup (hids : g.ids.Nodup) (hn : g.node? id = some n)
    (hedited : Action.edited raw dtype n = .ok n') :
    (Action.editConst id raw dtype).apply g =
      .ok { g with nodes := g.nodes.map fun m => if m.id == id then n' else m } := by
  have hnodes : (g.nodes.mapM fun m => if m.id == id then Action.edited raw dtype m else .ok m) =
      .ok (g.nodes.map fun m => if m.id == id then n' else m) := by
    refine Outcome.mapM_ok fun m hm => ?_
    split
    · next hid =>
      have hnode := node?_of_mem hids hm
      rw [beq_iff_eq.1 hid, hn] at hnode
      rw [← Option.some.inj hnode, hedited]
    · rfl
  rw [Action.apply, hnodes]
  rfl

theorem editConst_editConst (hids : g.ids.Nodup) (hn : g.node? id = some n)
    (hedited : Action.edited raw dtype n = .ok n') (hagain : Action.edited v dtype n' = .ok n') :
    ∃ g', (Action.editConst id raw dtype).apply g = .ok g' ∧
      (Action.editConst id v dtype).apply g' = .ok g' := by
  have hedit := editConst_of_nodup hids hn hedited
  refine ⟨_, hedit, editConst_eq_ok_iff.2 ⟨⟨rfl, rfl⟩, List.forall₂_same.2 fun m hm => ?_⟩⟩
  obtain ⟨m, -, rfl⟩ := List.mem_map.1 hm
  by_cases hid : m.id = id
  · rw [if_pos (beq_iff_eq.2 hid), hagain, ite_self]
  · rw [if_neg (mt beq_iff_eq.1 hid), if_neg (mt beq_iff_eq.1 hid)]

theorem not_circular_constant (hn : g.node? id = some n)
    (hcontent : n.content = .const v t label) : ¬ g.Circular id :=
  not_circular_of_leaf hn (by rw [origin_of_const hcontent]; rfl)

end Graph

/-! ### What a constant means -/

theorem ask_constant (hn : g.node? id = some n) (hcontent : n.content = .const v t label)
    (record : Value) (questions : List String) :
    ((Preview.ask ⟨g, record, []⟩ id).run (Preview.asked ⟨g, record, []⟩ questions)).1 =
      .ok v := by
  obtain ⟨answer, isAnswer, runs⟩ := Preview.exists_run_ask (s := ⟨g, record, []⟩) nofun id
  obtain ⟨memo, run, -⟩ := runs questions
  rw [run, isAnswer.value (Graph.not_circular_constant hn hcontent)]
  exact congrArg _ ((g.isBottomUp_value record).const hn hcontent)

theorem inline_constant (hn : g.node? id = some n) (hcontent : n.content = .const v t label)
    (before : List Code.Key) (handle : Option String) :
    ((Code.inline g (id, handle)).run (Code.inlined g before)).1 = source t v := by
  have hc := Graph.not_circular_constant hn hcontent
  rw [Code.inline_eq_expression (Code.right_inlined g before) hc,
    Graph.expression_of_node hc hn, Graph.origin_of_const hcontent]
  rfl

/-- **A constant means the same to evaluation and to generated code.**  What raw input becomes under
a declared type is written by its own type, and is left as it is when it is typed again; it becomes
nothing exactly if it is read from its text and an integer in it has too many digits for one.  Any
value is written by its own type under the type that it suggests, and not written exactly if an
integer in it has too many digits.  After an edit of a constant, evaluation reads the value that the
raw input became, and what generated code has of the constant is what is written of this value,
whatever was asked for before.  Where nodes have names of their own, an edit succeeds if the raw
input becomes a value, and the same edit by this value changes nothing. -/
theorem constants_agree (t : Dtype) (raw w : Value) :
    (∀ v, coerce t raw = .ok v → source t v = v.source ∧ coerce t v = .ok v) ∧
    (coerce t raw = .error ⟨⟩ ↔ readsText t raw = true ∧ raw.isWritable = false) ∧
    source (Dtype.infer w) w = w.source ∧
    (w.source = .error ⟨⟩ ↔ w.isWritable = false) ∧
    ∀ (g : Graph) (id : String) (n : Node) (old : Value) (own : Dtype) (label : Option String)
      (dtype : Option Dtype),
      g.node? id = some n → n.content = .const old own label → dtype.getD own = t →
      let edit := fun raw => (Action.editConst id raw dtype).apply
      (∀ edited, edit raw g = .ok edited → ∃ v, coerce t raw = .ok v ∧
        (∀ record questions, ((Preview.ask ⟨edited, record, []⟩ id).run
          (Preview.asked ⟨edited, record, []⟩ questions)).1 = .ok v) ∧
        (∀ before handle, ((Code.inline edited (id, handle)).run (Code.inlined edited before)).1 =
          v.source) ∧
        ∀ again, edit v edited = .ok again → again.node? id = edited.node? id) ∧
      (g.ids.Nodup → ∀ v, coerce t raw = .ok v →
        ∃ edited, edit raw g = .ok edited ∧ edit v edited = .ok edited) := by
  refine ⟨fun v hv => ⟨(fits_coerce hv).source_eq, (fits_coerce hv).coerce_eq⟩,
    coerce_eq_error_iff, (fits_infer w).source_eq, Spelling.eq_error_iff, ?_⟩
  rintro g id n old own label dtype hn hcontent rfl edit
  refine ⟨fun edited hedit => ?_, fun hids v hv => ?_⟩
  · obtain ⟨n', hn', hnode⟩ := Graph.node?_editConst hn hedit
    obtain ⟨v, hv, hcontent'⟩ := content_edited hcontent hn'
    refine ⟨v, hv, ask_constant hnode hcontent', fun before handle => ?_, fun again hagain => ?_⟩
    · rw [inline_constant hnode hcontent']
      exact (fits_coerce hv).source_eq
    · obtain ⟨n'', hn'', hnode'⟩ := Graph.node?_editConst hnode hagain
      rw [edited_edited hv hcontent'] at hn''
      rw [hnode', hnode, Except.ok.inj hn'']
  · have hedited : Action.edited raw dtype n =
        .ok { n with content := .const v (dtype.getD own) label } := by
      rw [edited_of_const hcontent, hv]
      rfl
    exact Graph.editConst_editConst hids hn hedited (edited_edited hv rfl)

/-- An integer of too many digits is the value of a constant of its type, but generated code has no
text for it; as a text it becomes nothing. -/
theorem lengthy_constant_disagrees :
    coerce .number (.int (power 10 4300)) = .ok (.int (power 10 4300)) ∧
      ((Preview.ask ⟨Code.lengthy, .null, []⟩ "big").run .empty).1 = .ok (.int (power 10 4300)) ∧
      source .number (.int (power 10 4300)) = .error ⟨⟩ ∧
      coerce .string (.int (power 10 4300)) = .error ⟨⟩ := by
  refine ⟨rfl, ?_, ?_, ?_⟩ <;> decide +kernel

end NodeFlow
