import NodeFlow.Code.Temporary
import NodeFlow.Proofs.Entries
import NodeFlow.Proofs.Text.Numbered
import NodeFlow.Proofs.Triple

/-!
# Names of temporaries

The names that are given out differ from node to node (`Distinct`), as the number in a name counts
the names of the same base, and the text of a name tells its base and its number
(`TemporaryName.text_injective`).  A node keeps the name that it was given first, and the base of it
is the node's (`Based`).
-/

namespace NodeFlow.Code

/-! ### Texts of names -/

theorem TemporaryName.text_injective {t t' : TemporaryName} (h : t.text = t'.text) : t = t' := by
  obtain ⟨base, number⟩ := t
  obtain ⟨base', number'⟩ := t'
  obtain ⟨rfl, rfl⟩ := Text.eq_of_numbered h
  rfl

/-- Whether a text ends in a digit, as the names of temporaries do. -/
def endsInDigit (text : String) : Bool := text.toList.getLast?.any Char.isDigit

theorem TemporaryName.endsInDigit_text (t : TemporaryName) : endsInDigit t.text = true := by
  have hne : Nat.toDigits 10 t.number ≠ [] := Nat.toDigits_ne_nil
  rw [endsInDigit, text, String.toList_append, Text.toList_toString, List.getLast?_append,
    List.getLast?_eq_some_getLast hne, Option.some_or, Option.any_some]
  exact Text.isDigit_toDigits t.number _ (List.getLast_mem hne)

/-! ### Names of nodes -/

/-- Names that differ, none with a higher number than there are names of its base. -/
structure Distinct (names : Names) : Prop where
  injective : ∀ e ∈ names, ∀ e' ∈ names, e.2 = e'.2 → e.1 = e'.1
  counted : ∀ e ∈ names, e.2.number ≤ names.countP (·.2.base == e.2.base)

/-- The given names are among those that were given out. -/
def Given (names : Names) (known : List (String × String)) : Prop :=
  ∀ e ∈ known, ∃ t, names.lookup e.1 = some t ∧ t.text = e.2

/-- Each name is made from the base for its node. -/
def Based (g : Graph) (names : Names) : Prop := ∀ e ∈ names, e.2.base = nameBase g e.1

variable {g : Graph} {names : Names} {known : List (String × String)} {id : String}
  {t : TemporaryName}

theorem distinct_nil : Distinct [] := ⟨nofun, nofun⟩

/-- The name that is made for a node is new. -/
theorem Distinct.cons (h : Distinct names) (base : String) :
    Distinct ((id, ⟨base, names.countP (·.2.base == base) + 1⟩) :: names) := by
  have higher : ∀ e ∈ names, e.2 ≠ ⟨base, names.countP (·.2.base == base) + 1⟩ := by
    intro e he heq
    have hnumber := h.counted e he
    rw [heq] at hnumber
    exact Nat.not_succ_le_self _ hnumber
  constructor
  · intro e he e' he' heq
    rcases List.mem_cons.1 he with rfl | he <;> rcases List.mem_cons.1 he' with rfl | he'
    · rfl
    · exact absurd heq.symm (higher e' he')
    · exact absurd heq (higher e he)
    · exact h.injective e he e' he' heq
  · intro e he
    rcases List.mem_cons.1 he with rfl | he
    · simp
    · have := h.counted e he
      rw [List.countP_cons]
      omega

/-- Different nodes have different names. -/
theorem Distinct.eq_iff (h : Distinct names) (hknown : Given names known) {e e' : String × String}
    (he : e ∈ known) (he' : e' ∈ known) : e.2 = e'.2 ↔ e.1 = e'.1 := by
  obtain ⟨t, ht, htext⟩ := hknown e he
  obtain ⟨t', ht', htext'⟩ := hknown e' he'
  constructor
  · intro heq
    obtain rfl : t = t' := TemporaryName.text_injective (by rw [htext, htext', heq])
    exact h.injective (e.1, t) (mem_of_lookup ht) (e'.1, t) (mem_of_lookup ht') rfl
  · intro heq
    rw [heq, ht'] at ht
    obtain rfl := Option.some.inj ht
    rw [← htext, ← htext']

theorem Given.of_lookup (h : Given names known) (hlookup : names.lookup id = some t) :
    Given names ((id, t.text) :: known) :=
  List.forall_mem_cons.2 ⟨⟨t, hlookup, rfl⟩, h⟩

/-- The name of one more node changes none that was given. -/
theorem Given.cons (h : Given names known) (hlookup : names.lookup id = none)
    (t : TemporaryName) : Given ((id, t) :: names) known := by
  intro e he
  obtain ⟨t', ht', htext⟩ := h e he
  have hne : e.1 ≠ id := by
    rintro rfl
    rw [hlookup] at ht'
    cases ht'
  exact ⟨t', (lookup_cons_of_ne hne).trans ht', htext⟩

theorem run_temporaryName_of_some (hlookup : names.lookup id = some t) :
    (temporaryName g id).run names = (t.text, names) := by
  rw [temporaryName, StateT.run_bind, StateT.run_get, pure_bind]
  simp only [hlookup]
  rfl

theorem run_temporaryName_of_none (hlookup : names.lookup id = none) :
    (temporaryName g id).run names =
      let t : TemporaryName := ⟨nameBase g id, names.countP (·.2.base == nameBase g id) + 1⟩
      (t.text, (id, t) :: names) := by
  rw [temporaryName, StateT.run_bind, StateT.run_get, pure_bind]
  simp only [hlookup]
  rfl

/-- A node is given a name that differs from those of all other nodes, and keeps it. -/
theorem triple_temporaryName (g : Graph) (id : String) (known : List (String × String)) :
    Triple (fun names => Distinct names ∧ Based g names ∧ Given names known) (temporaryName g id)
      fun name names => Distinct names ∧ Based g names ∧ Given names ((id, name) :: known) := by
  rintro names ⟨distinct, based, given⟩
  cases hlookup : names.lookup id with
  | some t =>
    rw [run_temporaryName_of_some hlookup]
    exact ⟨distinct, based, given.of_lookup hlookup⟩
  | none =>
    rw [run_temporaryName_of_none hlookup]
    exact ⟨distinct.cons (nameBase g id), List.forall_mem_cons.2 ⟨rfl, based⟩,
      (given.cons hlookup _).of_lookup List.lookup_cons_self⟩

end NodeFlow.Code
