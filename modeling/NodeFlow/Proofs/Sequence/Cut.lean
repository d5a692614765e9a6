import Mathlib.Data.List.Basic
import NodeFlow.Sequence

/-!
# Cutting lists

The chunks of a list put together are the list, none is empty, and all but the last are full.  A
slice that only ends, only starts or only goes backward is the front, the rest or the reverse of
the list.
-/

namespace NodeFlow.Sequence

variable {α : Type}

/-! ### Chunks -/

section Chunks

variable {more : Nat} {xs c : List α}

/-- The chunks put together are the list. -/
theorem flatten_chunks (more : Nat) (xs : List α) : (chunks more xs).flatten = xs := by
  induction xs using chunks.induct more with
  | case1 => rw [chunks, List.flatten_nil]
  | case2 x xs ih => rw [chunks, List.flatten_cons, ih, List.cons_append, List.take_append_drop]

theorem chunk_bounds (h : c ∈ chunks more xs) : c ≠ [] ∧ c.length ≤ more + 1 := by
  induction xs using chunks.induct more with
  | case1 => simp [chunks] at h
  | case2 x xs ih =>
    rw [chunks, List.mem_cons] at h
    rcases h with rfl | h
    · refine ⟨List.cons_ne_nil x _, ?_⟩
      rw [List.length_cons, List.length_take]
      omega
    · exact ih h

/-- All chunks but the last are full. -/
theorem length_of_mem_dropLast_chunks (h : c ∈ (chunks more xs).dropLast) :
    c.length = more + 1 := by
  induction xs using chunks.induct more with
  | case1 => simp [chunks] at h
  | case2 x xs ih =>
    rw [chunks] at h
    by_cases hrest : xs.drop more = []
    · simp [hrest, chunks] at h
    · have hmore : more < xs.length := by simpa using hrest
      have hchunks : chunks more (xs.drop more) ≠ [] := by
        intro hnil
        have := flatten_chunks more (xs.drop more)
        rw [hnil] at this
        exact hrest this.symm
      rw [List.dropLast_cons_of_ne_nil hchunks, List.mem_cons] at h
      rcases h with rfl | h
      · simp
        omega
      · exact ih h

end Chunks

/-! ### Slices -/

section Slices

variable (xs : List α)

theorem filterMap_getElem?_range (start count : Nat) :
    (List.range count).filterMap (fun k => xs[start + k]?) = (xs.drop start).take count := by
  induction count generalizing start with
  | zero => simp
  | succ count ih =>
    have hshift (k : Nat) : xs[start + (k + 1)]? = xs[start + 1 + k]? := by
      rw [Nat.add_right_comm, Nat.add_assoc]
    rw [List.range_succ_eq_map, List.filterMap_cons, List.filterMap_map]
    simp only [Function.comp_def, Nat.succ_eq_add_one, hshift, ih (start + 1), Nat.add_zero]
    by_cases hstart : start < xs.length
    · rw [List.getElem?_eq_getElem hstart, List.drop_eq_getElem_cons hstart, List.take_succ_cons]
    · rw [List.getElem?_eq_none (Nat.le_of_not_lt hstart), List.drop_eq_nil_of_le (by omega),
        List.drop_eq_nil_of_le (by omega), List.take_nil, List.take_nil]

theorem stepCount_one (first last : Int) : stepCount first last 1 = (last - first).toNat := by
  simp [stepCount]

/-- In steps of one a slice is what lies between two places. -/
theorem filterMap_getElem?_stepCount {first : Int} (hfirst : 0 ≤ first) (last : Int) :
    (List.range (stepCount first last 1)).filterMap
      (fun (k : Nat) => xs.toArray[(first + k * 1).toNat]?) =
      (xs.drop first.toNat).take (last - first).toNat := by
  have hplace (k : Nat) : (first + k * 1).toNat = first.toNat + k := by omega
  simp only [stepCount_one, hplace, List.getElem?_toArray, filterMap_getElem?_range]

theorem clamp_forward (length : Nat) (bound : Int) :
    clamp length false bound = max 0 (min (if bound < 0 then bound + length else bound) length) := rfl

/-- A slice in steps of one lies between its bounds. -/
theorem slice_one (start stop : Option Int) : slice start stop 1 xs =
    (xs.drop ((start.map (clamp xs.length false)).getD 0).toNat).take
      ((stop.map (clamp xs.length false)).getD xs.length -
        (start.map (clamp xs.length false)).getD 0).toNat := by
  have hforward : ¬ (1 : Int) < 0 := by decide
  have hfirst : 0 ≤ (start.map (clamp xs.length false)).getD 0 := by
    cases start with
    | none => exact Int.le_refl 0
    | some bound => exact Int.le_max_left 0 _
  unfold slice
  simp only [hforward, decide_false, if_false]
  exact filterMap_getElem?_stepCount xs hfirst _

/-- A slice that only ends is the front of the list. -/
theorem slice_stop {n : Int} (hn : 0 ≤ n) : slice none (some n) 1 xs = xs.take n.toNat := by
  rw [slice_one]
  simp only [Option.map_some, Option.map_none, Option.getD_some, Option.getD_none, clamp_forward,
    if_neg (Int.not_lt.2 hn), Int.toNat_zero, List.drop_zero]
  apply List.take_eq_take_iff.2
  omega

/-- A slice that only starts is the rest of the list. -/
theorem slice_start {n : Int} (hn : 0 ≤ n) : slice (some n) none 1 xs = xs.drop n.toNat := by
  rw [slice_one]
  simp only [Option.map_some, Option.map_none, Option.getD_some, Option.getD_none, clamp_forward,
    if_neg (Int.not_lt.2 hn)]
  by_cases hle : n ≤ xs.length
  · have hfirst : max 0 (min n (xs.length : Int)) = n := by omega
    rw [hfirst, List.take_of_length_le]
    rw [List.length_drop]
    omega
  · rw [List.drop_eq_nil_of_le (by omega), List.drop_eq_nil_of_le (by omega), List.take_nil]

/-- A slice that goes backward is the reverse of the list. -/
theorem slice_reverse : slice none none (-1) xs = xs.reverse := by
  have hcount : stepCount (xs.length - 1) (-1) (-1) = xs.length := by
    simp [stepCount]
  have hbackward : (-1 : Int) < 0 := by decide
  unfold slice
  simp only [hbackward, if_true, Option.map_none, Option.getD_none, hcount, List.getElem?_toArray]
  have hplace : ∀ k ∈ List.range xs.length,
      xs[((xs.length : Int) - 1 + k * -1).toNat]? = xs.reverse[0 + k]? := by
    intro k hk
    rw [List.mem_range] at hk
    rw [Nat.zero_add, List.getElem?_reverse hk]
    congr 1
    omega
  rw [List.filterMap_congr hplace, filterMap_getElem?_range, List.drop_zero,
    List.take_of_length_le (Nat.le_of_eq List.length_reverse)]

end Slices

end NodeFlow.Sequence
