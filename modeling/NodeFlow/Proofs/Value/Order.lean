import Mathlib.Data.Prod.Lex
import Mathlib.Data.String.Basic
import NodeFlow.Operator.Basic
import NodeFlow.Proofs.Number.Quantity
import NodeFlow.Proofs.Sequence.Sorted

/-!
# How values are sorted

Integers and truth values have the order of the integers that they count as, and texts that of the
codes of their characters (`precedes?_integer`, `precedes?_ofText`).  A text and a value of another
kind have none (`comparable_eq_false`).  A list is sorted by the order of values if every two of its
items have one (`allComparable_iff`), and otherwise by the names of the kinds and the texts
(`sort_eq_sortBy_sortKey`).
-/

namespace NodeFlow

open Sequence

/-! ### Texts -/

namespace Text

variable {s t : String}

theorem codeOf_of_not_isHalf {c : Char} (h : isHalf (codeOf c) = false) : codeOf c = c.toNat := by
  by_cases hhalf : isHalf (c.toNat - standIn) = true
  · rw [codeOf, if_pos hhalf, hhalf] at h
    cases h
  · rw [codeOf, if_neg hhalf]

theorem codes_of_isBroken (h : isBroken s = false) : codes s = s.toList.map Char.toNat := by
  refine List.map_congr_left fun c hc => codeOf_of_not_isHalf ?_
  simpa using List.any_eq_false.1 h c hc

theorem map_toNat_lt_iff (cs ds : List Char) :
    cs.map Char.toNat < ds.map Char.toNat ↔ cs < ds := by
  induction cs generalizing ds with
  | nil => cases ds <;> simp
  | cons c cs ih =>
    cases ds with
    | nil => simp
    | cons d ds =>
      rw [List.map_cons, List.map_cons, List.cons_lt_cons_iff, List.cons_lt_cons_iff, ih,
        Char.toNat_inj]
      rfl

/-- Whole texts are in the order of their codes. -/
theorem codes_lt_iff (hs : isBroken s = false) (ht : isBroken t = false) :
    codes s < codes t ↔ s < t := by
  rw [codes_of_isBroken hs, codes_of_isBroken ht, map_toNat_lt_iff, String.lt_iff_toList_lt]

end Text

theorem Atom.precedes?_of_numeric {a b : Atom} {x y : Number} (ha : a.numeric? = some x)
    (hb : b.numeric? = some y) : a.precedes? b = some (x.below y) := by
  unfold precedes?
  simp only [ha, hb]

/-- Texts have the order of their codes, broken ones among them. -/
theorem Atom.precedes?_ofText (s t : String) :
    (ofText s).precedes? (ofText t) = some (decide (Text.codes s < Text.codes t)) := by
  unfold ofText
  cases hs : Text.isBroken s with
  | true => cases Text.isBroken t <;> rfl
  | false =>
    cases ht : Text.isBroken t with
    | true => rfl
    | false => exact congrArg some (decide_eq_decide.2 (Text.codes_lt_iff hs ht).symm)

namespace Value

variable {v w : Value} {xs : List Value} {m n : Int} {k : Kind} {descending : Bool}

/-! ### Order of two values -/

/-- The integer that an integer is and a truth value counts as. -/
def integer? : Value → Option Int
  | bool b => some (if b then 1 else 0)
  | int n => some n
  | _ => none

theorem precedes?_integer (hv : v.integer? = some m) (hw : w.integer? = some n) :
    v.precedes? w = some (decide (m < n)) := by
  have hnumeric {v : Value} {m : Int} (h : v.integer? = some m) :
      ∃ a : Atom, v = atom a ∧ a.numeric? = some (.int m) := by
    unfold integer? at h
    split at h
    · next b => exact ⟨_, rfl, congrArg (some ∘ Number.int) (Option.some.inj h)⟩
    · next n => exact ⟨_, rfl, congrArg (some ∘ Number.int) (Option.some.inj h)⟩
    · cases h
  obtain ⟨a, rfl, ha⟩ := hnumeric hv
  obtain ⟨b, rfl, hb⟩ := hnumeric hw
  rw [precedes?, Atom.precedes?_of_numeric ha hb, Number.below_int]

theorem precedes_integer (hv : v.integer?.isSome) (hw : w.integer?.isSome) :
    v.precedes w = decide (v.integer?.getD 0 < w.integer?.getD 0) := by
  obtain ⟨m, hm⟩ := Option.isSome_iff_exists.1 hv
  obtain ⟨n, hn⟩ := Option.isSome_iff_exists.1 hw
  rw [precedes, precedes?_integer hm hn, hm, hn]
  rfl

theorem precedes_ofText (s t : String) :
    (atom (.ofText s)).precedes (atom (.ofText t)) = decide (Text.codes s < Text.codes t) := by
  rw [precedes, precedes?, Atom.precedes?_ofText]
  rfl

/-- A text has no order with a value of another kind. -/
theorem comparable_eq_false (hv : v.kind = .text) (hw : w.kind ≠ .text) :
    v.comparable w = false ∧ w.comparable v = false := by
  have htext : ∃ s, v = str s ∨ v = atom (.broken s) := by
    cases v with
    | atom a =>
      cases a with
      | str s => exact ⟨s, .inl rfl⟩
      | broken s => exact ⟨s, .inr rfl⟩
      | num x => cases x <;> cases hv
      | null | bool | bytes | date | moment => cases hv
    | list | pair | set | record => cases hv
  obtain ⟨s, rfl | rfl⟩ := htext
  all_goals cases w with
  | atom a =>
    cases a with
    | str | broken => exact absurd rfl hw
    | null | bool | num | bytes | date | moment => exact ⟨rfl, rfl⟩
  | list | pair | set | record => exact ⟨rfl, rfl⟩

/-- Values of one ordered kind have an order. -/
theorem comparable_of_orderedKind (hv : v.orderedKind? = some k) (hw : w.orderedKind? = some k) :
    v.comparable w = true := by
  have hatom {v : Value} (h : v.orderedKind? = some k) : ∃ a : Atom, v = atom a ∧
      (k = .integer ∧ a.numeric?.isSome ∨ k = .text ∧ ∃ s, a = .str s) := by
    unfold orderedKind? at h
    split at h
    · exact ⟨_, rfl, .inl ⟨(Option.some.inj h).symm, rfl⟩⟩
    · exact ⟨_, rfl, .inl ⟨(Option.some.inj h).symm, rfl⟩⟩
    · exact ⟨_, rfl, .inr ⟨(Option.some.inj h).symm, _, rfl⟩⟩
    · cases h
  obtain ⟨a, rfl, ⟨rfl, ha⟩ | ⟨rfl, s, rfl⟩⟩ := hatom hv
  · obtain ⟨b, rfl, ⟨-, hb⟩ | ⟨hk, -⟩⟩ := hatom hw
    · obtain ⟨x, hx⟩ := Option.isSome_iff_exists.1 ha
      obtain ⟨y, hy⟩ := Option.isSome_iff_exists.1 hb
      rw [comparable, precedes?, Atom.precedes?_of_numeric hx hy]
      rfl
    · cases hk
  · obtain ⟨b, rfl, ⟨hk, -⟩ | ⟨-, t, rfl⟩⟩ := hatom hw
    · cases hk
    · rfl

/-! ### Order of all values of a list -/

theorem allComparable_iff :
    allComparable xs = true ↔ xs.Pairwise fun v w => v.comparable w = true := by
  induction xs with
  | nil => simp [allComparable]
  | cons v rest ih =>
    rw [allComparable, List.pairwise_cons, Bool.or_eq_true, Bool.and_eq_true, Bool.and_eq_true, ih,
      List.all_eq_true, List.all_eq_true]
    refine ⟨?_, .inr⟩
    rintro (⟨hkind, hall⟩ | h)
    · -- all items are of the ordered kind of the first one
      obtain ⟨k, hk⟩ := Option.isSome_iff_exists.1 hkind
      have hsame : ∀ w ∈ v :: rest, w.orderedKind? = some k :=
        List.forall_mem_cons.2 ⟨hk, fun w hw => hk ▸ beq_iff_eq.1 (hall w hw)⟩
      exact List.pairwise_cons.1 (List.pairwise_of_forall_mem_list fun u hu w hw =>
        comparable_of_orderedKind (hsame u hu) (hsame w hw))
    · exact h

theorem allComparable_of_integers (h : ∀ x ∈ xs, x.integer?.isSome) : allComparable xs = true := by
  refine allComparable_iff.2 (List.pairwise_of_forall_mem_list fun x hx y hy => ?_)
  obtain ⟨m, hm⟩ := Option.isSome_iff_exists.1 (h x hx)
  obtain ⟨n, hn⟩ := Option.isSome_iff_exists.1 (h y hy)
  rw [comparable, precedes?_integer hm hn]
  rfl

theorem allComparable_of_texts (h : ∀ x ∈ xs, ∃ s, x = atom (.ofText s)) :
    allComparable xs = true := by
  refine allComparable_iff.2 (List.pairwise_of_forall_mem_list fun x hx y hy => ?_)
  obtain ⟨s, rfl⟩ := h x hx
  obtain ⟨t, rfl⟩ := h y hy
  rw [comparable, precedes?, Atom.precedes?_ofText]
  rfl

/-- Among a text and values of other kinds there is a pair without an order. -/
theorem allComparable_eq_false (hv : v ∈ xs) (hw : w ∈ xs) (hvkind : v.kind = .text)
    (hwkind : w.kind ≠ .text) : allComparable xs = false := by
  obtain ⟨hvw, hwv⟩ := comparable_eq_false hvkind hwkind
  rw [← Bool.not_eq_true, allComparable_iff]
  intro hall
  have hne : v ≠ w := by
    rintro rfl
    exact hwkind hvkind
  have heither : xs.Pairwise fun u u' => u.comparable u' = true ∨ u'.comparable u = true :=
    hall.imp .inl
  have : Std.Symm fun u u' : Value => u.comparable u' = true ∨ u'.comparable u = true :=
    ⟨fun _ _ => Or.symm⟩
  rcases heither.forall hv hw hne with h | h
  · rw [hvw] at h
    cases h
  · rw [hwv] at h
    cases h

/-! ### Sorts of a list -/

theorem keyPrecedes_eq (k l : String × List Nat) :
    keyPrecedes k l = decide (toLex k < toLex l) := by
  rw [keyPrecedes, Bool.eq_iff_iff]
  simp only [Bool.or_eq_true, Bool.and_eq_true, decide_eq_true_eq, beq_iff_eq]
  exact Prod.Lex.toLex_lt_toLex.symm

/-- Sorting by keys that are made once for each item. -/
theorem sortBy_map {α κ : Type} (precedes : κ → κ → Bool) (key : α → κ) (descending : Bool)
    (xs : List α) :
    (sortBy (fun x y => precedes x.1 y.1) descending (xs.map fun x => (key x, x))).map (·.2) =
      sortBy (fun x y => precedes (key x) (key y)) descending xs := by
  have hkeyed := List.map_mergeSort (f := fun x => (key x, x)) (l := xs)
    (r := fun x y => if descending then !precedes (key x) (key y) else !precedes (key y) (key x))
    (s := fun x y : κ × α => if descending then !precedes x.1 y.1 else !precedes y.1 x.1)
    fun _ _ _ _ => rfl
  rw [sortBy, ← hkeyed, List.map_map]
  exact List.map_id _

/-- Without an order of all items, a list is sorted by their keys. -/
theorem sort_eq_sortBy_sortKey (h : allComparable xs = false) (descending : Bool) :
    sort descending xs = sortBy (fun v w => keyPrecedes v.sortKey w.sortKey) descending xs := by
  rw [sort, h, if_neg Bool.false_ne_true]
  exact sortBy_map keyPrecedes sortKey descending xs

theorem sort_perm (descending : Bool) (xs : List Value) : (sort descending xs).Perm xs := by
  cases h : allComparable xs with
  | true =>
    rw [sort, if_pos h]
    exact List.mergeSort_perm xs _
  | false =>
    rw [sort_eq_sortBy_sortKey h]
    exact List.mergeSort_perm xs _

theorem isStableSort_integers (h : ∀ x ∈ xs, x.integer?.isSome) (descending : Bool) :
    IsStableSort (fun x : Value => x.integer?.getD 0) descending xs (sort descending xs) := by
  rw [sort, if_pos (allComparable_of_integers h)]
  exact isStableSort_sortBy _ descending fun x hx y hy => precedes_integer (h x hx) (h y hy)

theorem isStableSort_texts (h : ∀ x ∈ xs, ∃ s, x = atom (.ofText s)) (descending : Bool) :
    IsStableSort (fun x : Value => Text.codes x.text) descending xs (sort descending xs) := by
  rw [sort, if_pos (allComparable_of_texts h)]
  refine isStableSort_sortBy _ descending fun x hx y hy => ?_
  obtain ⟨s, rfl⟩ := h x hx
  obtain ⟨t, rfl⟩ := h y hy
  rw [precedes_ofText, text, text, Atom.text_ofText, Atom.text_ofText]
  exact decide_eq_decide.2 Iff.rfl

theorem isStableSort_sortKey (h : allComparable xs = false) (descending : Bool) :
    IsStableSort (fun x : Value => toLex x.sortKey) descending xs (sort descending xs) := by
  rw [sort_eq_sortBy_sortKey h]
  exact isStableSort_sortBy _ descending fun x _ y _ => keyPrecedes_eq x.sortKey y.sortKey

end Value

end NodeFlow
