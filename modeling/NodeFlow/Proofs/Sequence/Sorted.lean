import Mathlib.Order.Lattice
import NodeFlow.Value.Order

/-!
# Stable sorts

Sorting by a strict order that keys tell puts the items in the order of their keys, upward or
downward, and leaves items of one key in the order in which they came (`isStableSort_sortBy`).  For
the second half it is enough that the items of one key are a sublist of what is sorted already, which
a stable sort keeps.
-/

namespace NodeFlow.Sequence

variable {α κ : Type} [LinearOrder κ] {descending : Bool} {k l m : κ} {xs : List α}

/-- A key may stand before another, upward or downward. -/
def InOrder (descending : Bool) (k l : κ) : Prop := if descending then l ≤ k else k ≤ l

instance : Decidable (InOrder descending k l) :=
  inferInstanceAs (Decidable (if descending then l ≤ k else k ≤ l))

/-- The items `ys` are the items `xs` in the order of their keys, those of one key in the order in
which they came. -/
structure IsStableSort (key : α → κ) (descending : Bool) (xs ys : List α) : Prop where
  perm : ys.Perm xs
  ordered : ys.Pairwise fun x y => InOrder descending (key x) (key y)
  stable : ∀ k, (ys.filter fun x => key x = k) = xs.filter fun x => key x = k

theorem inOrder_rfl (descending : Bool) (k : κ) : InOrder descending k k := by
  cases descending <;> exact le_refl k

theorem InOrder.trans (hkl : InOrder descending k l) (hlm : InOrder descending l m) :
    InOrder descending k m := by
  cases descending with
  | false => exact le_trans (a := k) hkl hlm
  | true => exact le_trans (a := m) hlm hkl

theorem inOrder_total (descending : Bool) (k l : κ) :
    InOrder descending k l ∨ InOrder descending l k := by
  cases descending with
  | false => exact le_total k l
  | true => exact le_total l k

theorem isStableSort_mergeSort (key : α → κ) (descending : Bool) (xs : List α) :
    IsStableSort key descending xs
      (xs.mergeSort fun x y => InOrder descending (key x) (key y)) := by
  have htrans : ∀ x y z : α, decide (InOrder descending (key x) (key y)) = true →
      decide (InOrder descending (key y) (key z)) = true →
      decide (InOrder descending (key x) (key z)) = true := by
    simp only [decide_eq_true_eq]
    exact fun x y z => InOrder.trans
  have htotal : ∀ x y : α, (decide (InOrder descending (key x) (key y)) ||
      decide (InOrder descending (key y) (key x))) = true := by
    simp only [Bool.or_eq_true, decide_eq_true_eq]
    exact fun x y => inOrder_total descending (key x) (key y)
  have hperm := List.mergeSort_perm xs fun x y => decide (InOrder descending (key x) (key y))
  refine ⟨hperm, ?_, fun k => ?_⟩
  · have hordered := List.pairwise_mergeSort htrans htotal xs
    simpa only [decide_eq_true_eq] using hordered
  · -- the items of one key are sorted as they are, so the sort has them as a sublist
    have hsorted : (xs.filter fun x => key x = k).Pairwise fun x y =>
        decide (InOrder descending (key x) (key y)) = true := by
      refine List.pairwise_of_forall_mem_list fun x hx y hy => decide_eq_true ?_
      have hx : key x = k := by simpa using (List.mem_filter.1 hx).2
      have hy : key y = k := by simpa using (List.mem_filter.1 hy).2
      rw [hx, hy]
      exact inOrder_rfl descending k
    have hsublist := (List.sublist_mergeSort htrans htotal hsorted List.filter_sublist).filter
      fun x => decide (key x = k)
    simp only [List.filter_filter, Bool.and_self] at hsublist
    exact (hsublist.eq_of_length (hperm.filter _).length_eq.symm).symm

/-- Sorting by what keys tell is a stable sort. -/
theorem isStableSort_sortBy {precedes : α → α → Bool} (key : α → κ) (descending : Bool)
    (h : ∀ x ∈ xs, ∀ y ∈ xs, precedes x y = decide (key x < key y)) :
    IsStableSort key descending xs (Value.sortBy precedes descending xs) := by
  have hsort : Value.sortBy precedes descending xs =
      xs.mergeSort fun x y => InOrder descending (key x) (key y) := by
    have hmap := List.map_mergeSort (f := id) (l := xs)
      (r := fun x y => if descending then !precedes x y else !precedes y x)
      (s := fun x y => InOrder descending (key x) (key y)) fun x hx y hy => by
        cases descending with
        | false =>
          change (!precedes y x) = decide (key x ≤ key y)
          rw [h y hy x hx, ← decide_not]
          exact decide_eq_decide.2 not_lt
        | true =>
          change (!precedes x y) = decide (key y ≤ key x)
          rw [h x hx y hy, ← decide_not]
          exact decide_eq_decide.2 not_lt
    rwa [List.map_id, List.map_id] at hmap
  rw [hsort]
  exact isStableSort_mergeSort key descending xs

end NodeFlow.Sequence
