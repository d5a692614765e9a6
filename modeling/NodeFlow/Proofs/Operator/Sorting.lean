import NodeFlow.Operator.Arrange
import NodeFlow.Proofs.Value.Order

/-!
# Sorting operators

Items that all have an order with each other are sorted by it, whatever their size.  Other items are
sorted by their texts, and one with an integer of too many digits has none: such a list is the only
one on which sorting fails (`eval_sorting`).
-/

namespace NodeFlow

open Sequence

namespace Value

variable {xs : List Value}

/-! ### Lists that cannot be sorted -/

/-- Some two items have no order, and some item has no text. -/
def Unsortable (xs : List Value) : Prop :=
  (¬ xs.Pairwise fun v w => v.comparable w = true) ∧ ∃ x ∈ xs, x.isWritable = false

instance : Decidable (Unsortable xs) := inferInstanceAs (Decidable (_ ∧ _))

theorem allWritable_iff : allWritable xs = true ↔ ∀ x ∈ xs, x.isWritable = true := by
  induction xs with
  | nil => simp [allWritable]
  | cons x xs ih => rw [allWritable, Bool.and_eq_true, ih, List.forall_mem_cons]

theorem unsortable_iff :
    Unsortable xs ↔ allComparable xs = false ∧ allWritable xs = false := by
  rw [← Bool.not_eq_true, ← Bool.not_eq_true, allComparable_iff, allWritable_iff]
  simp [Unsortable]

theorem not_unsortable (h : allComparable xs = true) : ¬ Unsortable xs := by
  simp [unsortable_iff, h]

theorem not_unsortable_of_isWritable (h : ∀ x ∈ xs, x.isWritable = true) : ¬ Unsortable xs := by
  simp [unsortable_iff, allWritable_iff.2 h]

/-- A value with no set in it, and no number that is none.  Of others it is left open which items of
a list a sort compares, and in which order the members of a set are shown. -/
inductive IsOrderly : Value → Prop
  | atom {a : Atom} (h : a ≠ .num .nan) : IsOrderly (atom a)
  | list {items : List Value} (h : ∀ v ∈ items, IsOrderly v) : IsOrderly (list items)
  | pair {v w : Value} (hv : IsOrderly v) (hw : IsOrderly w) : IsOrderly (pair v w)
  | record {entries : List (Atom × Value)} (hkeys : ∀ e ∈ entries, e.1 ≠ .num .nan)
    (hvalues : ∀ e ∈ entries, IsOrderly e.2) : IsOrderly (record entries)

/-- The items of a value have texts if the value has one. -/
theorem isWritable_eq_allWritable {v : Value} {xs : List Value} (h : v.items? = some xs) :
    v.isWritable = allWritable xs := by
  cases v with
  | list items =>
    obtain rfl := Option.some.inj h
    rw [isWritable]
  | pair v w =>
    obtain rfl := Option.some.inj h
    simp [isWritable, allWritable]
  | atom | set | record => cases h

end Value

namespace Operator

variable {args : Args} {xs : List Value}

/-- The operator that sorts upward or downward. -/
def sorting (descending : Bool) : Operator := if descending then sortDescending else sortAscending

/-- Sorting fails on lists that cannot be sorted, and on no other one. -/
theorem eval_sorting (descending : Bool) (args : Args) :
    (sorting descending).eval args =
      if Value.Unsortable (args "list").items then .error .tooManyDigits
      else .ok (.list (Value.sort descending (args "list").items)) := by
  have hsorted : (sorting descending).eval args = sorted descending (args "list") := by
    cases descending <;> rfl
  have hguard : (Value.allComparable (args "list").items || (args "list").isWritable) = true ↔
      ¬ Value.Unsortable (args "list").items := by
    rw [Value.unsortable_iff, Value.items]
    cases hitems : (args "list").items? with
    | none => simp [Value.allComparable]
    | some xs => simp [Value.isWritable_eq_allWritable hitems, or_iff_not_imp_left]
  rw [hsorted, sorted]
  by_cases h : Value.Unsortable (args "list").items
  · rw [if_pos h, if_neg (mt hguard.1 (not_not.2 h))]
  · rw [if_neg h, if_pos (hguard.2 h)]

theorem eval_sorting_of_sortable (hxs : (args "list").items = xs) (h : ¬ Value.Unsortable xs)
    (descending : Bool) :
    (sorting descending).eval args = .ok (.list (Value.sort descending xs)) := by
  rw [eval_sorting, hxs, if_neg h]

/-- Sorting gives back the items if each has a text.  Of orderly items it is known that sorting fails
only where they have neither an order nor texts, and that they are sorted by the names of their
kinds and by their texts where a text stands beside an item of another kind.  Integers and truth
values are sorted by the integers that they count as, and texts by their codes.  In either direction
items that are sorted as equal stay in order. -/
theorem sorting_stable (descending : Bool) (args : Args) (xs : List Value)
    (hxs : (args "list").items = xs) :
    ((∀ x ∈ xs, x.isWritable = true) →
      ∃ ys, (sorting descending).eval args = .ok (.list ys) ∧ ys.Perm xs) ∧
    ((∀ x ∈ xs, x.IsOrderly) →
      ((sorting descending).eval args = .error .tooManyDigits ↔ Value.Unsortable xs) ∧
      (¬ Value.Unsortable xs →
        ∃ ys, (sorting descending).eval args = .ok (.list ys) ∧ ys.Perm xs) ∧
      ((∃ v ∈ xs, v.kind = .text) → (∃ w ∈ xs, w.kind ≠ .text) →
        (∀ x ∈ xs, x.isWritable = true) →
        ∃ ys, (sorting descending).eval args = .ok (.list ys) ∧
          IsStableSort (fun x => toLex x.sortKey) descending xs ys)) ∧
    ((∀ x ∈ xs, x.integer?.isSome) →
      ∃ ys, (sorting descending).eval args = .ok (.list ys) ∧
        IsStableSort (fun x => x.integer?.getD 0) descending xs ys) ∧
    ((∀ x ∈ xs, ∃ s, x = .atom (.ofText s)) →
      ∃ ys, (sorting descending).eval args = .ok (.list ys) ∧
        IsStableSort (fun x => Text.codes x.text) descending xs ys) := by
  have hsort (h : ¬ Value.Unsortable xs) :
      ∃ ys, (sorting descending).eval args = .ok (.list ys) ∧ ys.Perm xs :=
    ⟨_, eval_sorting_of_sortable hxs h descending, Value.sort_perm descending xs⟩
  refine ⟨fun h => hsort (Value.not_unsortable_of_isWritable h),
    fun _ => ⟨?_, hsort, ?_⟩, fun h => ?_, fun h => ?_⟩
  · rw [eval_sorting, hxs]
    by_cases h : Value.Unsortable xs <;> simp [h]
  · rintro ⟨v, hv, hvkind⟩ ⟨w, hw, hwkind⟩ h
    have hall := Value.allComparable_eq_false hv hw hvkind hwkind
    have hsortable := Value.not_unsortable_of_isWritable h
    exact ⟨_, eval_sorting_of_sortable hxs hsortable descending,
      Value.isStableSort_sortKey hall descending⟩
  · have hsortable := Value.not_unsortable (Value.allComparable_of_integers h)
    exact ⟨_, eval_sorting_of_sortable hxs hsortable descending,
      Value.isStableSort_integers h descending⟩
  · have hsortable := Value.not_unsortable (Value.allComparable_of_texts h)
    exact ⟨_, eval_sorting_of_sortable hxs hsortable descending,
      Value.isStableSort_texts h descending⟩

theorem sorting_stable_mixed :
    (∃ ys, sortDescending.eval (fun _ => .list [.bool true, .int 2, .int 1]) = .ok (.list ys) ∧
      IsStableSort (fun x => x.integer?.getD 0) true [.bool true, .int 2, .int 1] ys) ∧
    (∃ ys, sortAscending.eval (fun _ => .list [.str "b", .str "a"]) = .ok (.list ys) ∧
      IsStableSort (fun x => Text.codes x.text) false [.str "b", .str "a"] ys) ∧
    ∃ ys, sortAscending.eval (fun _ => .list [.str "b", .int 10, .int 9]) = .ok (.list ys) ∧
      IsStableSort (fun x => toLex x.sortKey) false [.str "b", .int 10, .int 9] ys := by
  obtain ⟨-, -, hintegers, -⟩ := sorting_stable true
    (fun _ => .list [.bool true, .int 2, .int 1]) [.bool true, .int 2, .int 1] rfl
  obtain ⟨-, -, -, htexts⟩ := sorting_stable false
    (fun _ => .list [.str "b", .str "a"]) [.str "b", .str "a"] rfl
  obtain ⟨-, hmixed, -, -⟩ := sorting_stable false
    (fun _ => .list [.str "b", .int 10, .int 9]) [.str "b", .int 10, .int 9] rfl
  have horderly : ∀ x ∈ [Value.str "b", .int 10, .int 9], x.IsOrderly := by
    simp only [List.forall_mem_cons]
    exact ⟨.atom nofun, .atom nofun, .atom nofun, nofun⟩
  obtain ⟨-, -, hkeys⟩ := hmixed horderly
  refine ⟨hintegers (by decide), htexts ?_, hkeys ⟨.str "b", by simp, rfl⟩
    ⟨.int 9, by simp, by decide⟩ (by decide +kernel)⟩
  exact List.forall_mem_cons.2 ⟨⟨"b", rfl⟩, List.forall_mem_singleton.2 ⟨"a", rfl⟩⟩

/-- An integer of too many digits beside a text. -/
theorem vast_beside_text_unsorted :
    sortAscending.eval (fun _ => .list [.int (10 ^ 4300), .str "x"]) = .error .tooManyDigits := by
  decide +kernel

end Operator

end NodeFlow
