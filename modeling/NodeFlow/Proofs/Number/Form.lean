import Mathlib
import NodeFlow.Number.Binary

/-!
# The shape of a double

`Binary.form` reads a double off its bits.  A finite double is told by its shape
(`eq_of_form_finite`), and mantissa and exponent are those of a double: the mantissa has 53 bits at
most, and as many unless the exponent is the least one (`normal_of_form`).  So the size
`mantissa · 2 ^ exponent` tells both of them (`mantissa_exponent_inj`).
-/

namespace NodeFlow.Binary

open Float.Model Float.Model.UnpackedFloat

variable {x y : Float} {negative negative' : Bool} {mantissa mantissa' : Nat}
  {exponent exponent' : Int}

/-! ### The three parts of the bits -/

theorem unpackExponent_eq_iff (x : Float) :
    @unpackExponent .binary64 x.toBits.toBitVec = -1#11 ↔
      x.toBits.toNat / hiddenBit % 0x800 = 2047 := by
  rw [unpackExponent_def, ← BitVec.toNat_inj, BitVec.extractLsb'_toNat]
  simp [hiddenBit, Nat.shiftRight_eq_div_pow]

theorem unpackMantissa_eq_iff (x : Float) :
    @unpackMantissa .binary64 x.toBits.toBitVec = 0#52 ↔
      x.toBits.toNat % hiddenBit = 0 := by
  rw [unpackMantissa_def, ← BitVec.toNat_inj, BitVec.extractLsb'_toNat]
  simp [hiddenBit]

theorem form_eq_finite_iff : form x = .finite negative mantissa exponent ↔
    x.toBits.toNat / hiddenBit % 0x800 ≠ 2047 ∧
      negative = (x.toBits.toNat / 0x8000000000000000 == 1) ∧
      (x.toBits.toNat / hiddenBit % 0x800 = 0 ∧ mantissa = x.toBits.toNat % hiddenBit ∧
          exponent = leastExponent ∨
        x.toBits.toNat / hiddenBit % 0x800 ≠ 0 ∧
          mantissa = x.toBits.toNat % hiddenBit + hiddenBit ∧
          exponent = leastExponent + (x.toBits.toNat / hiddenBit % 0x800 : Nat) - 1) := by
  unfold form
  dsimp only
  split
  · split <;> simp [*]
  · split <;> simp [*] <;> tauto

theorem form_eq_infinite_iff : form x = .infinite negative ↔
    x.toBits.toNat / hiddenBit % 0x800 = 2047 ∧ x.toBits.toNat % hiddenBit = 0 ∧
      negative = (x.toBits.toNat / 0x8000000000000000 == 1) := by
  unfold form
  dsimp only
  split
  · split
    · simp [*]
      tauto
    · simp [*]
  · split <;> simp [*]

theorem eq_of_parts
    (hsign : (x.toBits.toNat / 0x8000000000000000 == 1) =
      (y.toBits.toNat / 0x8000000000000000 == 1))
    (hexponent : x.toBits.toNat / hiddenBit % 0x800 = y.toBits.toNat / hiddenBit % 0x800)
    (hfraction : x.toBits.toNat % hiddenBit = y.toBits.toNat % hiddenBit) : x = y := by
  have hx := x.toBits.toNat_lt
  have hy := y.toBits.toNat_lt
  have hsign : x.toBits.toNat / 0x8000000000000000 = 1 ↔
      y.toBits.toNat / 0x8000000000000000 = 1 := by
    simpa using hsign
  rw [← Float.toBits_inj, ← UInt64.toNat_inj]
  unfold hiddenBit at *
  omega

/-! ### Doubles that are no numbers -/

theorem nan_eq : nan = Float.nan := by
  decide +kernel

/-- There is one double that is no number. -/
theorem form_eq_nan_iff : form x = .nan ↔ x = nan := by
  constructor
  · intro h
    have hbits : x.toBits.toNat / hiddenBit % 0x800 = 2047 ∧ x.toBits.toNat % hiddenBit ≠ 0 := by
      unfold form at h
      dsimp only at h
      split at h
      · split at h
        · cases h
        · exact ⟨‹_›, ‹_›⟩
      · split at h <;> cases h
    have hpacked := x.toModel.valid.eq_packedNaN ((unpackExponent_eq_iff x).2 hbits.1)
      (mt (unpackMantissa_eq_iff x).1 hbits.2)
    rw [nan_eq, ← Float.toBits_inj, ← UInt64.toBitVec_inj]
    exact hpacked.trans (by decide +kernel)
  · rintro rfl
    decide +kernel

theorem isFinite_iff_exponent : x.isFinite = true ↔ x.toBits.toNat / hiddenBit % 0x800 ≠ 2047 := by
  rw [Ne, ← unpackExponent_eq_iff]
  show (UnpackedFloat.unpack .binary64 x.toBits.toBitVec).isFinite = true ↔
    ¬ @unpackExponent .binary64 x.toBits.toBitVec = -1#11
  unfold UnpackedFloat.unpack
  dsimp only
  by_cases hexponent : @unpackExponent .binary64 x.toBits.toBitVec = -1#11
  · rw [if_pos hexponent]
    split <;> simp [UnpackedFloat.isFinite, hexponent]
  · rw [if_neg hexponent]
    split
    · split <;> simp only [UnpackedFloat.isFinite, hexponent, not_false_eq_true]
    · simp only [UnpackedFloat.isFinite, hexponent, not_false_eq_true]

/-- A double is finite exactly if its shape is. -/
theorem isFinite_iff : x.isFinite = true ↔
    ∃ negative mantissa exponent, form x = .finite negative mantissa exponent := by
  rw [isFinite_iff_exponent]
  constructor
  · intro h
    by_cases hzero : x.toBits.toNat / hiddenBit % 0x800 = 0
    · exact ⟨_, _, _, form_eq_finite_iff.2 ⟨h, rfl, .inl ⟨hzero, rfl, rfl⟩⟩⟩
    · exact ⟨_, _, _, form_eq_finite_iff.2 ⟨h, rfl, .inr ⟨hzero, rfl, rfl⟩⟩⟩
  · rintro ⟨negative, mantissa, exponent, h⟩
    exact (form_eq_finite_iff.1 h).1

/-! ### Shapes of finite doubles -/

theorem form_zero : form 0 = .finite false 0 leastExponent := by decide +kernel

theorem form_negZero : form (-0) = .finite true 0 leastExponent := by decide +kernel

theorem eq_of_form_infinite (hx : form x = .infinite negative) (hy : form y = .infinite negative) :
    x = y := by
  obtain ⟨hexponent, hfraction, hsign⟩ := form_eq_infinite_iff.1 hx
  obtain ⟨hexponent', hfraction', hsign'⟩ := form_eq_infinite_iff.1 hy
  exact eq_of_parts (hsign.symm.trans hsign') (hexponent.trans hexponent'.symm)
    (hfraction.trans hfraction'.symm)

theorem eq_of_form_finite (hx : form x = .finite negative mantissa exponent)
    (hy : form y = .finite negative mantissa exponent) : x = y := by
  obtain ⟨-, hsign, hx⟩ := form_eq_finite_iff.1 hx
  obtain ⟨-, hsign', hy⟩ := form_eq_finite_iff.1 hy
  have := Nat.mod_lt x.toBits.toNat (show 0 < hiddenBit by decide)
  have := Nat.mod_lt y.toBits.toNat (show 0 < hiddenBit by decide)
  exact eq_of_parts (hsign.symm.trans hsign') (by omega) (by omega)

theorem normal_of_form (h : form x = .finite negative mantissa exponent) :
    leastExponent ≤ exponent ∧ mantissa < 2 * hiddenBit ∧
      (leastExponent < exponent → hiddenBit ≤ mantissa) := by
  have := Nat.mod_lt x.toBits.toNat (show 0 < hiddenBit by decide)
  obtain ⟨-, -, ⟨-, rfl, rfl⟩ | ⟨h, rfl, rfl⟩⟩ := form_eq_finite_iff.1 h
  · omega
  · omega

theorem eq_zero_of_form (hx : form x = .finite negative 0 exponent) : x = 0 ∨ x = -0 := by
  obtain ⟨hleast, -, hfull⟩ := normal_of_form hx
  have hexponent : exponent = leastExponent := by
    by_contra hne
    have hhidden : hiddenBit ≤ 0 := hfull (by omega)
    exact absurd hhidden (by decide)
  subst hexponent
  cases negative with
  | false => exact .inl (eq_of_form_finite hx form_zero)
  | true => exact .inr (eq_of_form_finite hx form_negZero)

/-- A mantissa of 53 bits at most falls short of one with all 53 at a larger exponent. -/
theorem size_ne_of_lt (hlt : mantissa < 2 * hiddenBit) (hfull : hiddenBit ≤ mantissa')
    (h : exponent < exponent') :
    (mantissa : ℚ) * 2 ^ exponent ≠ mantissa' * 2 ^ exponent' := by
  intro hsize
  obtain ⟨k, rfl⟩ : ∃ k : Nat, exponent' = exponent + (k + 1) :=
    ⟨(exponent' - exponent - 1).toNat, by omega⟩
  have hshift : (mantissa : ℚ) = mantissa' * 2 ^ (k + 1) := by
    rw [zpow_add₀ two_ne_zero, mul_left_comm, mul_comm] at hsize
    have hcancel := mul_left_cancel₀ (zpow_ne_zero exponent two_ne_zero) hsize
    exact_mod_cast hcancel
  have hshift : mantissa = mantissa' * 2 ^ (k + 1) := by exact_mod_cast hshift
  have htwo : 2 ≤ 2 ^ (k + 1) := by
    have := Nat.one_le_two_pow (n := k)
    rw [pow_succ]
    omega
  have := Nat.mul_le_mul hfull htwo
  omega

/-- The size of a double tells its mantissa and its exponent. -/
theorem mantissa_exponent_inj (hx : form x = .finite negative mantissa exponent)
    (hy : form y = .finite negative' mantissa' exponent')
    (h : (mantissa : ℚ) * 2 ^ exponent = mantissa' * 2 ^ exponent') :
    mantissa = mantissa' ∧ exponent = exponent' := by
  obtain ⟨hleast, hlt, hfull⟩ := normal_of_form hx
  obtain ⟨hleast', hlt', hfull'⟩ := normal_of_form hy
  rcases lt_trichotomy exponent exponent' with hlow | rfl | hhigh
  · exact absurd h (size_ne_of_lt hlt (hfull' (by omega)) hlow)
  · have hcancel := mul_right_cancel₀ (zpow_ne_zero exponent two_ne_zero) h
    exact ⟨by exact_mod_cast hcancel, rfl⟩
  · exact absurd h.symm (size_ne_of_lt hlt' (hfull (by omega)) hhigh)

end NodeFlow.Binary
