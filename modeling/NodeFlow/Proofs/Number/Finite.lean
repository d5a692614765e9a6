import NodeFlow.Proofs.Number.Quantity

/-!
# Numbers within the range of doubles

An integer is rounded to a double exactly if it lies below the middle between the largest double
and the power of two that would come next (`Binary.ofInt?_isSome_iff`), and the double is finite.
So asking whether an integer is finite succeeds exactly for these (`Number.finite?_int`).
-/

namespace NodeFlow

namespace Binary

open Float.Model Float.Model.UnpackedFloat

variable {negative : Bool} {mantissa num den : Nat} {exponent : Int} {x : Float}

/-! ### Putting doubles together -/

/-- Bits without the exponent of infinities are those of the double made of them. -/
theorem toBits_ofBits {bits : UInt64} (h : bits.toNat / hiddenBit % 0x800 ≠ 2047) :
    (Float.ofBits bits).toBits = bits := by
  have hexponent : @unpackExponent .binary64 bits.toBitVec ≠ -1#11 := by
    rw [Ne, unpackExponent_def, ← BitVec.toNat_inj, BitVec.extractLsb'_toNat]
    simpa [hiddenBit, Nat.shiftRight_eq_div_pow] using h
  have hnumber : @isNaNBits .binary64 bits.toBitVec = false := by
    unfold isNaNBits
    exact decide_eq_false fun h => hexponent h.1
  rw [← UInt64.toBitVec_inj]
  show UnpackedFloat.pack .binary64 (UnpackedFloat.unpack .binary64 bits.toBitVec) = bits.toBitVec
  rw [pack_unpack, hnumber]
  rfl

theorem isFinite_of_assemble? (h : assemble? negative mantissa exponent = some x) :
    x.isFinite = true := by
  unfold assemble? at h
  dsimp only at h
  split at h
  · cases h
  · next hbits =>
    obtain rfl := Option.some.inj h
    have hfield (sign : Nat) (hsign : sign = 0x8000000000000000 ∨ sign = 0) :
        (UInt64.ofNat ((exponent - leastExponent).toNat * hiddenBit + mantissa + sign)).toNat
          / hiddenBit % 0x800 ≠ 2047 := by
      rw [UInt64.toNat_ofNat']
      unfold hiddenBit at *
      omega
    have hfield := hfield (if negative then 0x8000000000000000 else 0) (by cases negative <;> simp)
    rw [isFinite_iff_exponent, toBits_ofBits hfield]
    exact hfield

theorem isFinite_of_nearest? (h : nearest? negative num den = some x) : x.isFinite = true := by
  unfold nearest? at h
  split at h
  · exact isFinite_of_assemble? h
  · exact isFinite_of_assemble? h

/-! ### Rounding integers -/

theorem le_roundHalfEven (num den : Nat) : num / den ≤ roundHalfEven num den := by
  unfold roundHalfEven
  dsimp only
  split
  · omega
  · split <;> omega

theorem roundHalfEven_le (num den : Nat) : roundHalfEven num den ≤ num / den + 1 := by
  unfold roundHalfEven
  dsimp only
  split
  · omega
  · split <;> omega

theorem roundHalfEven_one (n : Nat) : roundHalfEven n 1 = n := by
  simp [roundHalfEven, Nat.mod_one]

theorem magnitude_one {n : Nat} (h : n ≠ 0) : magnitude n 1 = n.log2 := by
  have hone : Nat.log2 1 = 0 := by decide
  have hle := Nat.log2_self_le h
  unfold magnitude scaleUp power
  simp [hone]
  omega

theorem assemble?_isSome_iff : (assemble? negative mantissa exponent).isSome = true ↔
    (exponent - leastExponent).toNat * hiddenBit + mantissa < 2047 * hiddenBit := by
  unfold assemble?
  dsimp only
  split <;> simp <;> omega

/-- The mantissa of a natural has 53 bits, unless it is rounded up to a power of two. -/
theorem mantissa_bounds {n place : Nat} (hle : 2 ^ place ≤ n) (hlt : n < 2 ^ (place + 1)) :
    hiddenBit ≤ roundHalfEven (scaleUp n (52 - place)) (scaleUp 1 (place - 52)) ∧
      roundHalfEven (scaleUp n (52 - place)) (scaleUp 1 (place - 52)) ≤ 2 * hiddenBit := by
  have hhidden : hiddenBit = 2 ^ 52 := by decide
  rw [pow_succ] at hlt
  rcases Nat.lt_or_ge 52 place with hlarge | hsmall
  · obtain ⟨k, rfl⟩ : ∃ k, place = 52 + k := ⟨place - 52, by omega⟩
    have hnum : scaleUp n (52 - (52 + k : Nat)) = n := by simp [scaleUp, power]
    have hden : scaleUp 1 ((52 + k : Nat) - 52) = 2 ^ k := by simp [scaleUp, power]
    rw [pow_add] at hle hlt
    have hlow : 2 ^ 52 ≤ n / 2 ^ k := (Nat.le_div_iff_mul_le (Nat.two_pow_pos k)).2 hle
    have hhigh : n / 2 ^ k < 2 ^ 53 :=
      (Nat.div_lt_iff_lt_mul (Nat.two_pow_pos k)).2 (by rw [pow_succ]; linarith)
    have := le_roundHalfEven n (2 ^ k)
    have := roundHalfEven_le n (2 ^ k)
    rw [hnum, hden, hhidden]
    omega
  · obtain ⟨k, hk⟩ : ∃ k, k + place = 52 := ⟨52 - place, by omega⟩
    have hnum : scaleUp n (52 - place) = n * 2 ^ k := by
      rw [scaleUp, power, show ((52 : Int) - place).toNat = k by omega, Nat.pow_eq]
    have hden : scaleUp 1 (place - 52) = 1 := by
      rw [scaleUp, power, show ((place : Int) - 52).toNat = 0 by omega, Nat.pow_eq, pow_zero,
        one_mul]
    have hpower : 2 ^ place * 2 ^ k = 2 ^ 52 := by rw [← pow_add, Nat.add_comm, hk]
    have hlow := Nat.mul_le_mul_right (2 ^ k) hle
    have hhigh := Nat.mul_le_mul_right (2 ^ k) hlt.le
    rw [Nat.mul_right_comm, hpower] at hhigh
    rw [hpower] at hlow
    rw [hnum, hden, hhidden, roundHalfEven_one]
    omega

/-- Rounding below the power of two that follows the largest mantissa: the tie goes up. -/
theorem roundHalfEven_lt_iff {n half : Nat} (hhalf : 0 < half) (hn : n < 2 ^ 54 * half) :
    roundHalfEven n (2 * half) < 2 ^ 53 ↔ n < 2 ^ 54 * half - half := by
  have hsplit := Nat.div_add_mod n (2 * half)
  have hrest := Nat.mod_lt n (show 0 < 2 * half by omega)
  have hquotient : n / (2 * half) < 2 ^ 53 :=
    (Nat.div_lt_iff_lt_mul (by omega)).2 (by omega)
  rcases Nat.lt_or_ge (n / (2 * half)) (2 ^ 53 - 1) with hless | hmore
  · have := roundHalfEven_le n (2 * half)
    have := Nat.mul_le_mul_left (2 * half) (show n / (2 * half) ≤ 2 ^ 53 - 2 by omega)
    refine iff_of_true (by omega) (by omega)
  · have hlast : n / (2 * half) = 2 ^ 53 - 1 := by omega
    rw [hlast] at hsplit
    unfold roundHalfEven
    rw [hlast]
    dsimp only
    split
    · omega
    · split <;> omega

theorem nearest?_isSome_iff_place {n place : Nat} (hle : 2 ^ place ≤ n)
    (hlt : n < 2 ^ (place + 1)) : (nearest? negative n 1).isSome = true ↔
      place < 1023 ∨ place = 1023 ∧ roundHalfEven n (scaleUp 1 971) < 2 ^ 53 := by
  have hzero : n ≠ 0 := by
    have := Nat.two_pow_pos place
    omega
  have hplace : n.log2 = place := (Nat.log2_eq_iff hzero).2 ⟨hle, hlt⟩
  have hexponent : max ((place : Int) - 52) leastExponent = place - 52 := by
    unfold leastExponent
    omega
  have hbits : ((place : Int) - 52 - leastExponent).toNat = place + 1022 := by
    unfold leastExponent
    omega
  have hhidden : hiddenBit = 2 ^ 52 := by decide
  obtain ⟨hlow, hhigh⟩ := mantissa_bounds hle hlt
  unfold nearest?
  rw [if_neg hzero, magnitude_one hzero]
  dsimp only
  rw [hplace, hexponent, assemble?_isSome_iff, hbits, Int.neg_sub]
  rcases lt_trichotomy place 1023 with hsmall | rfl | hlarge
  · have := Nat.mul_le_mul_right hiddenBit (show place + 1022 ≤ 2044 by omega)
    exact iff_of_true (by omega) (.inl hsmall)
  · have hnum : scaleUp n (52 - (1023 : Nat)) = n := by simp [scaleUp, power]
    have hden : scaleUp 1 ((1023 : Nat) - 52) = scaleUp 1 971 := rfl
    rw [hnum, hden] at hhigh ⊢
    rw [hhidden]
    constructor
    · intro h
      exact .inr ⟨rfl, by omega⟩
    · rintro (h | ⟨-, h⟩)
      · omega
      · omega
  · have := Nat.mul_le_mul_right hiddenBit (show 2046 ≤ place + 1022 by omega)
    exact iff_of_false (by omega) (by omega)

/-- The least natural too large for a double lies half a place above the largest double. -/
theorem nearest?_isSome_iff (negative : Bool) (n : Nat) :
    (nearest? negative n 1).isSome = true ↔ n < 2 ^ 1024 - 2 ^ 970 := by
  -- Powers this large are not evaluated: each is a multiple of the least one, which gets a name.
  obtain ⟨half, hhalf⟩ : ∃ half, half = 2 ^ 970 := ⟨_, rfl⟩
  have hpositive : 0 < half := by
    rw [hhalf]
    positivity
  have hlast : 2 ^ 1023 = 2 ^ 53 * half := by rw [hhalf, ← pow_add]
  have hbound : 2 ^ 1024 = 2 ^ 54 * half := by rw [hhalf, ← pow_add]
  have hden : scaleUp 1 971 = 2 * half := by
    have hnext (k : Nat) : scaleUp 1 (k + 1 : Nat) = 2 * 2 ^ k := by
      rw [scaleUp, power, Int.toNat_natCast, Nat.pow_eq, pow_succ', one_mul]
    rw [hhalf]
    exact hnext 970
  rw [hbound, ← hhalf]
  by_cases hzero : n = 0
  · subst hzero
    refine iff_of_true ?_ ?_
    · rw [nearest?, if_pos rfl, assemble?_isSome_iff]
      decide
    · clear hhalf hlast hbound
      omega
  have hle := Nat.log2_self_le hzero
  have hlt : n < 2 ^ (n.log2 + 1) := Nat.lt_log2_self
  rw [nearest?_isSome_iff_place hle hlt, hden]
  rcases lt_trichotomy n.log2 1023 with hsmall | hplace | hlarge
  · have hn := hlt.trans_le ((pow_le_pow_right₀ one_le_two hsmall).trans_eq hlast)
    clear hhalf hlast hbound
    exact iff_of_true (.inl hsmall) (by omega)
  · have hnext : 2 ^ (1023 + 1) = 2 ^ 54 * half := by rw [hhalf, ← pow_add]
    rw [hplace] at hlt
    have hn := hlt.trans_eq hnext
    rw [hplace, roundHalfEven_lt_iff hpositive hn]
    simp
  · have hn := (hbound.symm.trans_le (pow_le_pow_right₀ one_le_two hlarge)).trans hle
    clear hhalf hlast hbound
    exact iff_of_false (by omega) (by omega)

theorem ofInt?_isSome_iff (n : Int) :
    (ofInt? n).isSome = true ↔ n.natAbs < 2 ^ 1024 - 2 ^ 970 :=
  nearest?_isSome_iff _ _

theorem isFinite_of_ofInt? {n : Int} (h : ofInt? n = some x) : x.isFinite = true :=
  isFinite_of_nearest? h

end Binary

namespace Number

/-- Whether a number is finite can be asked of all doubles, and of the integers in their range. -/
theorem finite?_int (n : Int) :
    (int n).finite? = if n.natAbs < 2 ^ 1024 - 2 ^ 970 then some true else none := by
  have hrange := Binary.ofInt?_isSome_iff n
  show (Binary.ofInt? n).map Float.isFinite = _
  cases h : Binary.ofInt? n with
  | none =>
    rw [h] at hrange
    exact (if_neg (mt hrange.2 (by simp))).symm
  | some x =>
    rw [h] at hrange
    rw [if_pos (hrange.1 rfl), Option.map_some, Binary.isFinite_of_ofInt? h]

/-- Integers beyond the range of doubles. -/
def IsTooLarge (x : Number) : Prop := ∃ n : Int, x = .int n ∧ 2 ^ 1024 - 2 ^ 970 ≤ n.natAbs

/-- All numbers but the integers that are too large can be asked whether they are finite. -/
theorem finite?_eq_none_iff {x : Number} : x.finite? = none ↔ x.IsTooLarge := by
  unfold IsTooLarge
  cases x with
  | int n =>
    rw [finite?_int]
    split
    · next h =>
      refine iff_of_false (Option.some_ne_none _) ?_
      rintro ⟨m, hm, hlarge⟩
      obtain rfl := int.inj hm
      exact absurd h (Nat.not_lt.2 hlarge)
    · next h => exact iff_of_true rfl ⟨n, rfl, Nat.not_lt.1 h⟩
  | float x =>
    refine iff_of_false (Option.some_ne_none _) ?_
    rintro ⟨n, hn, -⟩
    cases hn

theorem exists_toFloat? {x : Number} (h : ¬ x.IsTooLarge) : ∃ f, x.toFloat? = some f := by
  rw [← finite?_eq_none_iff, finite?, Option.map_eq_none_iff] at h
  exact Option.ne_none_iff_exists'.1 h

/-- Of the numbers that can be asked the finite ones are those that stand for a rational. -/
theorem finite?_iff {x : Number} {finite : Bool} (h : x.finite? = some finite) :
    finite = true ↔ ∃ q, x.quantity? = some (.rational q) := by
  cases x with
  | int n =>
    rw [finite?_int] at h
    split at h
    · exact iff_of_true (Option.some.inj h).symm ⟨n, rfl⟩
    · cases h
  | float x =>
    obtain rfl := Option.some.inj h
    rw [Binary.isFinite_iff, quantity?]
    cases Binary.form x <;> simp [Binary.Form.quantity?]

end Number

end NodeFlow
