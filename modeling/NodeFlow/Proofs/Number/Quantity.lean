import NodeFlow.Number.Basic
import NodeFlow.Proofs.Number.Form

/-!
# What numbers stand for

Every number but the one that is no number stands for a rational or for an infinity.  Two numbers
are equal exactly if they stand for the same (`Number.equals_iff`), whether they are integers or
doubles, and rounding a number down or toward zero is rounding the rational it stands for.
-/

namespace NodeFlow

/-- What a number stands for. -/
inductive Quantity where
  | infinite (negative : Bool)
  | rational (value : ℚ)

/-- What a double of a shape stands for. -/
def Binary.Form.quantity? : Binary.Form → Option Quantity
  | .nan => none
  | .infinite negative => some (.infinite negative)
  | .finite negative mantissa exponent =>
    some (.rational (if negative then -(mantissa * 2 ^ exponent) else mantissa * 2 ^ exponent))

/-- What a number stands for. -/
def Number.quantity? : Number → Option Quantity
  | int n => some (.rational n)
  | float x => (Binary.form x).quantity?

theorem power_ne_zero (exponent : Int) : (power 2 exponent : ℚ) ≠ 0 := by
  simp [power]

theorem two_zpow_mul_power (exponent : Int) :
    (2 : ℚ) ^ exponent * power 2 (-exponent) = power 2 exponent := by
  rcases le_total 0 exponent with h | h
  · obtain ⟨k, rfl⟩ := Int.eq_ofNat_of_zero_le h
    simp [power]
  · obtain ⟨k, hk⟩ := Int.eq_ofNat_of_zero_le (Int.neg_nonneg_of_nonpos h)
    obtain rfl : exponent = -k := by omega
    simp [power]

/-! ### Equal numbers -/

namespace Binary

variable {x y : Float}

theorem quantity?_eq_none_iff : (form x).quantity? = none ↔ x = nan := by
  rw [← form_eq_nan_iff]
  cases form x <;> simp [Form.quantity?]

theorem eq_or_zeros_of_quantity? {negative negative' : Bool} {mantissa mantissa' : Nat}
    {exponent exponent' : Int} (hx : form x = .finite negative mantissa exponent)
    (hy : form y = .finite negative' mantissa' exponent')
    (h : (form x).quantity? = (form y).quantity?) :
    x = y ∨ x = 0 ∧ y = -0 ∨ x = -0 ∧ y = 0 := by
  simp only [hx, hy, Form.quantity?, Option.some.injEq, Quantity.rational.injEq] at h
  have hpos : (0 : ℚ) ≤ mantissa * 2 ^ exponent := by positivity
  have hpos' : (0 : ℚ) ≤ mantissa' * 2 ^ exponent' := by positivity
  have hsize : (mantissa : ℚ) * 2 ^ exponent = mantissa' * 2 ^ exponent' := by
    split at h <;> split at h <;> linarith
  obtain ⟨rfl, rfl⟩ := mantissa_exponent_inj hx hy hsize
  by_cases hsign : negative = negative'
  · subst hsign
    exact .inl (eq_of_form_finite hx hy)
  · have hzero : (mantissa : ℚ) * 2 ^ exponent = 0 := by
      cases negative <;> cases negative' <;> simp at h hsign <;> linarith
    have hmantissa := (mul_eq_zero.1 hzero).resolve_right (zpow_ne_zero exponent two_ne_zero)
    obtain rfl : mantissa = 0 := by exact_mod_cast hmantissa
    rcases eq_zero_of_form hx with rfl | rfl <;> rcases eq_zero_of_form hy with rfl | rfl <;> simp

theorem beq_iff : (x == y) = true ↔
    ∃ q, (form x).quantity? = some q ∧ (form y).quantity? = some q := by
  rw [Float.beq_iff_ne_nan_and_eq, ← nan_eq]
  constructor
  · rintro ⟨hx, -, rfl | ⟨rfl, rfl⟩ | ⟨rfl, rfl⟩⟩
    · obtain ⟨q, hq⟩ := Option.ne_none_iff_exists'.1 (mt quantity?_eq_none_iff.1 hx)
      exact ⟨q, hq, hq⟩
    · exact ⟨.rational 0, by simp [form_zero, Form.quantity?], by simp [form_negZero, Form.quantity?]⟩
    · exact ⟨.rational 0, by simp [form_negZero, Form.quantity?], by simp [form_zero, Form.quantity?]⟩
  · rintro ⟨q, hx, hy⟩
    refine ⟨fun h => ?_, fun h => ?_, ?_⟩
    · simp [quantity?_eq_none_iff.2 h] at hx
    · simp [quantity?_eq_none_iff.2 h] at hy
    cases hfx : form x with
    | nan => simp [hfx, Form.quantity?] at hx
    | infinite negative =>
      simp only [hfx, Form.quantity?, Option.some.injEq] at hx
      subst hx
      cases hfy : form y with
      | nan => simp [hfy, Form.quantity?] at hy
      | finite => simp [hfy, Form.quantity?] at hy
      | infinite negative' =>
        simp only [hfy, Form.quantity?, Option.some.injEq, Quantity.infinite.injEq] at hy
        subst hy
        exact .inl (eq_of_form_infinite hfx hfy)
    | finite negative mantissa exponent =>
      cases hfy : form y with
      | nan => simp [hfy, Form.quantity?] at hy
      | infinite =>
        rw [← hy] at hx
        simp [hfx, hfy, Form.quantity?] at hx
      | finite => exact eq_or_zeros_of_quantity? hfx hfy (hx.trans hy.symm)

theorem not_lt_of_beq (h : (x == y) = true) : ¬ x < y := by
  intro hlt
  have hequal : (x.toModel.unpack.compare y.toModel.unpack == some .eq) = true := h
  have hless : (x.toModel.unpack.compare y.toModel.unpack == some .lt) = true :=
    of_decide_eq_true hlt
  rw [beq_iff_eq] at hequal hless
  rw [hequal] at hless
  cases hless

theorem compareInt_eq_iff (n : Int) (x : Float) :
    compareInt n x = some .eq ↔ (form x).quantity? = some (.rational n) := by
  unfold compareInt
  cases form x with
  | nan => simp [Form.quantity?]
  | infinite negative => cases negative <;> simp [Form.quantity?]
  | finite negative mantissa exponent =>
    simp only [Form.quantity?, Option.some.injEq, Quantity.rational.injEq, scaleUp,
      compare_eq_iff_eq]
    rw [← mul_left_inj' (power_ne_zero (-exponent)), eq_comm, ← Int.cast_inj (α := ℚ)]
    cases negative <;> simp [mul_assoc, two_zpow_mul_power]

end Binary

namespace Number

open Binary

theorem compareFloat_eq_iff (x y : Float) : compareFloat x y = some .eq ↔ (x == y) = true := by
  unfold compareFloat
  constructor
  · intro h
    split at h
    · cases h
    · split at h
      · cases h
      · split at h
        · assumption
        · cases h
  · intro h
    have hswap : (y == x) = true := by
      rw [beq_iff] at h ⊢
      exact h.imp fun _ => And.symm
    rw [if_neg (not_lt_of_beq h), if_neg (not_lt_of_beq hswap), if_pos h]

theorem below_int (m n : Int) : (int m).below (int n) = decide (m < n) := by
  simp only [below, compare?]
  rw [Bool.eq_iff_iff]
  simp [compare_lt_iff_lt]

/-- Numbers are equal if they stand for the same. -/
theorem equals_iff (x y : Number) : x.equals y = true ↔
    ∃ q, x.quantity? = some q ∧ y.quantity? = some q := by
  rw [equals, beq_iff_eq]
  cases x with
  | int m =>
    cases y with
    | int n =>
      simp only [compare?, quantity?, Option.some.injEq, compare_eq_iff_eq, exists_eq_left',
        Quantity.rational.injEq, Int.cast_inj]
      exact eq_comm
    | float y => simp [compare?, quantity?, compareInt_eq_iff]
  | float x =>
    cases y with
    | int n =>
      have hswap (o : Option Ordering) : o.map Ordering.swap = some .eq ↔ o = some .eq := by
        cases o with
        | none => simp
        | some o => cases o <;> simp
      simp [compare?, quantity?, hswap, compareInt_eq_iff]
    | float y => exact (compareFloat_eq_iff x y).trans beq_iff

theorem quantity?_eq_none_iff {x : Number} : x.quantity? = none ↔ x = nan := by
  cases x with
  | int n => simp [quantity?, nan]
  | float x => simp [quantity?, nan, Binary.quantity?_eq_none_iff]

end Number

/-! ### Rounding to integers -/

/-- The largest integer not above a quantity; infinities have none. -/
def Quantity.floor? : Quantity → Option Int
  | infinite _ => none
  | rational q => some ⌊q⌋

namespace Binary

variable {x : Float} {negative : Bool} {mantissa : Nat} {exponent : Int}

/-- A size is the fraction that keeps its scale on one side. -/
theorem size_eq_div (mantissa : Nat) (exponent : Int) :
    (mantissa : ℚ) * 2 ^ exponent = (scaleUp mantissa exponent : ℕ) / (power 2 (-exponent) : ℕ) := by
  rw [eq_div_iff (power_ne_zero (-exponent)), mul_assoc, two_zpow_mul_power, scaleUp, Nat.cast_mul]

theorem floor?_eq (x : Float) : floor? x = (form x).quantity?.bind Quantity.floor? := by
  unfold floor?
  cases form x with
  | nan => rfl
  | infinite negative => rfl
  | finite negative mantissa exponent =>
    have hfloor (n : Int) : n.fdiv (power 2 (-exponent)) = ⌊(n : ℚ) / (power 2 (-exponent) : ℕ)⌋ := by
      rw [Rat.floor_intCast_div_natCast, Int.fdiv_eq_ediv_of_nonneg _ (Int.natCast_nonneg _)]
    simp only [Form.quantity?, Option.bind_some, Quantity.floor?, size_eq_div, hfloor]
    cases negative <;> simp [neg_div]

/-- At zero and above, the integer part is the largest integer not above. -/
theorem truncate?_eq {q : ℚ} (h : (form x).quantity? = some (.rational q)) (hq : 0 ≤ q) :
    truncate? x = some ⌊q⌋ := by
  unfold truncate?
  cases hx : form x with
  | nan => simp [hx, Form.quantity?] at h
  | infinite negative => simp [hx, Form.quantity?] at h
  | finite negative mantissa exponent =>
    simp only [hx, Form.quantity?, Option.some.injEq, Quantity.rational.injEq, size_eq_div] at h
    have hfloor : ⌊((scaleUp mantissa exponent : ℕ) : ℚ) / (power 2 (-exponent) : ℕ)⌋
        = (scaleUp mantissa exponent / power 2 (-exponent) : ℕ) :=
      Rat.floor_natCast_div_natCast _ _
    subst h
    cases negative with
    | false =>
      simp only [Bool.false_eq_true, if_false, hfloor]
    | true =>
      -- The one double below zero that is not less than zero is the zero with a sign.
      have hzero : ((scaleUp mantissa exponent : ℕ) : ℚ) / (power 2 (-exponent) : ℕ) = 0 := by
        have hpos : (0 : ℚ) ≤ (scaleUp mantissa exponent : ℕ) / (power 2 (-exponent) : ℕ) := by
          positivity
        simp only [if_true, neg_nonneg] at hq
        exact le_antisymm hq hpos
      rw [hzero, Int.floor_zero] at hfloor
      simp only [if_true, hzero, ← hfloor, neg_zero, Int.floor_zero]

end Binary

namespace Number

theorem floor?_eq (x : Number) : x.floor? = x.quantity?.bind Quantity.floor? := by
  cases x with
  | int n => simp [floor?, quantity?, Quantity.floor?]
  | float x => exact Binary.floor?_eq x

theorem truncate?_eq {x : Number} {q : ℚ} (h : x.quantity? = some (.rational q)) (hq : 0 ≤ q) :
    x.truncate? = some ⌊q⌋ := by
  cases x with
  | int n =>
    obtain rfl := Quantity.rational.inj (Option.some.inj h)
    simp [truncate?]
  | float x => exact Binary.truncate?_eq h hq

end Number

end NodeFlow
