import Mathlib.Data.List.Nodup
import NodeFlow.Sequence

/-!
# First occurrences

Thinning a list compares an item with the items kept before it only.  Where likeness is an
equivalence these stand for all items before it, dropped ones included (`Covers`).  So what is left
are the items that are like none before them (`distinct_eq_firsts`), and each item is like exactly
one of these (`countP_distinct`).
-/

namespace NodeFlow.Sequence

variable {α : Type} {like : α → α → Bool} {P : α → Prop} {kept seen xs : List α} {x : α}

/-- The items that are like none of the items before them. -/
def firsts (like : α → α → Bool) (xs : List α) : List α :=
  (xs.zipIdx.filter fun (x, i) => !(xs.take i).any (like x)).map Prod.fst

/-- Likeness is an equivalence of the items with a property. -/
structure IsLikeness (like : α → α → Bool) (P : α → Prop) : Prop where
  refl : ∀ x, P x → like x x = true
  symm : ∀ x y, P x → P y → like x y = true → like y x = true
  trans : ∀ x y z, P x → P y → P z → like x y = true → like y z = true → like x z = true

/-! ### What the kept items stand for -/

/-- The kept items are among those seen, and each of the seen that is not kept is like one of
them. -/
structure Covers (like : α → α → Bool) (kept seen : List α) : Prop where
  subset : kept ⊆ seen
  covered : ∀ z ∈ seen, z ∈ kept ∨ ∃ o ∈ kept, like z o = true

theorem covers_nil : Covers like [] [] := ⟨List.Subset.refl [], nofun⟩

theorem Covers.keep (h : Covers like kept seen) (x : α) : Covers like (x :: kept) (seen ++ [x]) := by
  constructor
  · intro z hz
    rcases List.mem_cons.1 hz with rfl | hz
    · simp
    · exact List.mem_append_left _ (h.subset hz)
  · intro z hz
    rw [List.mem_append, List.mem_singleton] at hz
    rcases hz with hz | rfl
    · rcases h.covered z hz with hkept | ⟨o, ho, hlike⟩
      · exact .inl (List.mem_cons_of_mem x hkept)
      · exact .inr ⟨o, List.mem_cons_of_mem x ho, hlike⟩
    · exact .inl List.mem_cons_self

theorem Covers.drop (h : Covers like kept seen) (hx : kept.any (like x) = true) :
    Covers like kept (seen ++ [x]) := by
  refine ⟨List.Subset.trans h.subset (List.subset_append_left _ _), fun z hz => ?_⟩
  rw [List.mem_append, List.mem_singleton] at hz
  rcases hz with hz | rfl
  · exact h.covered z hz
  · exact .inr (List.any_eq_true.1 hx)

/-- An item is like one of the kept exactly if it is like one of the seen. -/
theorem Covers.any_eq (h : Covers like kept seen) (likeness : IsLikeness like P)
    (hseen : ∀ z ∈ seen, P z) (hx : P x) : kept.any (like x) = seen.any (like x) := by
  rw [Bool.eq_iff_iff, List.any_eq_true, List.any_eq_true]
  constructor
  · rintro ⟨o, ho, hlike⟩
    exact ⟨o, h.subset ho, hlike⟩
  · rintro ⟨z, hz, hlike⟩
    rcases h.covered z hz with hkept | ⟨o, ho, hcover⟩
    · exact ⟨z, hkept, hlike⟩
    · have ho' := hseen o (h.subset ho)
      exact ⟨o, ho, likeness.trans x z o hx (hseen z hz) ho' hlike hcover⟩

/-! ### Thinning from the left -/

theorem covers_distinctFrom (h : Covers like kept seen) :
    Covers like (distinctFrom like kept xs) (seen ++ xs) := by
  induction xs generalizing kept seen with
  | nil =>
    rw [distinctFrom, List.append_nil]
    refine ⟨fun z hz => h.subset (List.mem_reverse.1 hz), fun z hz => ?_⟩
    simpa only [List.mem_reverse] using h.covered z hz
  | cons x xs ih =>
    rw [distinctFrom, List.append_cons]
    split
    · next hx => exact ih (h.drop hx)
    · exact ih (h.keep x)

/-- The items left are among those given, and each of the others is like one of them. -/
theorem covers_distinct (like : α → α → Bool) (xs : List α) : Covers like (distinct like xs) xs :=
  covers_distinctFrom covers_nil

theorem mem_of_mem_distinct (h : x ∈ distinct like xs) : x ∈ xs := (covers_distinct like xs).subset h

theorem distinctFrom_eq (h : Covers like kept seen) (likeness : IsLikeness like P)
    (hall : ∀ z ∈ seen ++ xs, P z) :
    distinctFrom like kept xs = kept.reverse ++
      ((xs.zipIdx seen.length).filter fun (x, i) =>
        !((seen ++ xs).take i).any (like x)).map Prod.fst := by
  induction xs generalizing kept seen with
  | nil => simp [distinctFrom]
  | cons x xs ih =>
    have hseen (z : α) (hz : z ∈ seen) : P z := hall z (List.mem_append_left _ hz)
    have hany := h.any_eq likeness hseen (hall x (by simp))
    rw [List.append_cons] at hall ⊢
    have hlength : seen.length + 1 = (seen ++ [x]).length := by simp
    have htake : (seen ++ [x] ++ xs).take seen.length = seen := by simp
    rw [distinctFrom, List.zipIdx_cons, List.filter_cons, hlength]
    simp only [htake, ← hany]
    cases hx : kept.any (like x) with
    | true =>
      rw [if_pos rfl, ih (h.drop hx) hall]
      rfl
    | false =>
      rw [if_neg Bool.false_ne_true, ih (h.keep x) hall]
      simp

/-- The items left are those that are like none before them, kept or dropped. -/
theorem distinct_eq_firsts (likeness : IsLikeness like P) (hall : ∀ x ∈ xs, P x) :
    distinct like xs = firsts like xs := by
  have hall : ∀ x ∈ [] ++ xs, P x := hall
  have h := distinctFrom_eq covers_nil likeness hall
  simpa [distinct, firsts] using h

/-! ### No two alike -/

theorem pairwise_distinctFrom (h : kept.Pairwise fun x y => like x y = false) :
    (distinctFrom like kept xs).Pairwise fun x y => like y x = false := by
  induction xs generalizing kept with
  | nil => exact List.pairwise_reverse.2 h
  | cons x xs ih =>
    rw [distinctFrom]
    split
    · exact ih h
    · next hx =>
      refine ih (List.pairwise_cons.2 ⟨fun y hy => ?_, h⟩)
      by_contra hlike
      exact hx (List.any_eq_true.2 ⟨y, hy, by simpa using hlike⟩)

/-- No item left is like one before it. -/
theorem pairwise_distinct (like : α → α → Bool) (xs : List α) :
    (distinct like xs).Pairwise fun x y => like y x = false :=
  pairwise_distinctFrom List.Pairwise.nil

theorem distinctFrom_eq_self (h : (kept.reverse ++ xs).Pairwise fun x y => like y x = false) :
    distinctFrom like kept xs = kept.reverse ++ xs := by
  induction xs generalizing kept with
  | nil => simp [distinctFrom]
  | cons x xs ih =>
    have hx : kept.any (like x) = false := by
      refine List.any_eq_false.2 fun y hy => ?_
      have hpair := (List.pairwise_append.1 h).2.2 y (List.mem_reverse.2 hy) x List.mem_cons_self
      simp [hpair]
    have hrest : ((x :: kept).reverse ++ xs).Pairwise fun x y => like y x = false := by
      simpa using h
    rw [distinctFrom, hx, if_neg Bool.false_ne_true, ih hrest]
    simp

/-- Thinning a second time changes nothing. -/
theorem distinct_distinct (like : α → α → Bool) (xs : List α) :
    distinct like (distinct like xs) = distinct like xs := by
  have h := pairwise_distinct like xs
  rw [distinct, distinctFrom_eq_self (by simpa using h)]
  rfl

theorem countP_le_one {p : α → Bool} (h : xs.Pairwise fun x y => ¬ (p x = true ∧ p y = true)) :
    xs.countP p ≤ 1 := by
  induction xs with
  | nil => simp
  | cons x xs ih =>
    obtain ⟨hx, hrest⟩ := List.pairwise_cons.1 h
    by_cases hp : p x = true
    · have hzero : xs.countP p = 0 := by
        rw [List.countP_eq_zero]
        intro y hy hpy
        exact hx y hy ⟨hp, hpy⟩
      rw [List.countP_cons_of_pos hp]
      omega
    · rw [List.countP_cons_of_neg hp]
      exact ih hrest

/-- Where likeness is an equivalence, each item is like exactly one of those left. -/
theorem countP_distinct (likeness : IsLikeness like P) (hall : ∀ x ∈ xs, P x) (hx : x ∈ xs) :
    (distinct like xs).countP (like x) = 1 := by
  have hleft (y : α) (hy : y ∈ distinct like xs) : P y := hall y (mem_of_mem_distinct hy)
  apply Nat.le_antisymm
  · refine countP_le_one ((pairwise_distinct like xs).imp_of_mem fun {y z} hy hz hyz => ?_)
    rintro ⟨hxy, hxz⟩
    have hzx := likeness.symm x z (hall x hx) (hleft z hz) hxz
    have hzy := likeness.trans z x y (hleft z hz) (hall x hx) (hleft y hy) hzx hxy
    simp [hzy] at hyz
  · rw [Nat.one_le_iff_ne_zero, Ne, List.countP_eq_zero, not_forall]
    rcases (covers_distinct like xs).covered x hx with hkept | ⟨o, ho, hlike⟩
    · exact ⟨x, fun h => h hkept (likeness.refl x (hall x hx))⟩
    · exact ⟨o, fun h => h ho hlike⟩

end NodeFlow.Sequence
