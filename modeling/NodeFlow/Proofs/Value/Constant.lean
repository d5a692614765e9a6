import NodeFlow.Operator.Basic
import NodeFlow.Proofs.Value.Numeral
import NodeFlow.Proofs.Value.Source

/-!
# Constants of their type

What raw input becomes under a declared type is a value of that type (`Constant.fits_coerce`).  Such
a value stays as it is when it is typed again, and generated code writes it by its own type
(`Constant.Fits.source_eq`).  Raw input that is read from its text becomes nothing where an integer
in it has too many digits for that (`Constant.coerce_eq_error_iff`).  As a number, all other raw
input becomes what an input for numbers takes it for, but for truth values, which become no number
(`coerce_number_iff`).
-/

namespace NodeFlow

variable {v : Value} {t : Dtype}

/-! ### Values of a type -/

namespace Constant

/-- A value is of a type, as values of constants are that raw input was turned into. -/
inductive Fits : Dtype → Value → Prop
  | number (x : Number) : Fits .number (.num x)
  | boolean (b : Bool) : Fits .boolean (.bool b)
  | list (items : List Value) : Fits .list (.list items)
  | string (s : String) : Fits .string (.str s)
  | brokenString (s : String) : Fits .string (.atom (.broken s))
  | date (s : String) : Fits .date (.str s)
  | brokenDate (s : String) : Fits .date (.atom (.broken s))
  | any (v : Value) : Fits .any v

/-- What raw input becomes under a type is of that type. -/
theorem fits_coerce {raw : Value} (h : coerce t raw = .ok v) : Fits t v := by
  unfold coerce at h
  cases t with
  | number =>
    dsimp only at h
    split at h
    · obtain rfl := Except.ok.inj h
      exact .number _
    · obtain ⟨text, -, rfl⟩ := Outcome.map_eq_ok_iff.1 h
      exact .number _
  | boolean =>
    obtain rfl := Except.ok.inj h
    exact .boolean _
  | list =>
    dsimp only at h
    split at h
    · obtain rfl := Except.ok.inj h
      exact .list _
    · obtain ⟨text, -, rfl⟩ := Outcome.map_eq_ok_iff.1 h
      exact .list _
  | string =>
    dsimp only at h
    split at h
    · obtain rfl := Except.ok.inj h
      exact .brokenString _
    · obtain ⟨text, -, rfl⟩ := Outcome.map_eq_ok_iff.1 h
      exact .string text
  | date =>
    dsimp only at h
    split at h
    · obtain rfl := Except.ok.inj h
      exact .brokenDate _
    · obtain ⟨text, -, rfl⟩ := Outcome.map_eq_ok_iff.1 h
      exact .date text
  | any =>
    obtain rfl := Except.ok.inj h
    exact .any raw

theorem fits_infer (v : Value) : Fits (Dtype.infer v) v := by
  unfold Dtype.infer
  split
  · exact .boolean _
  · exact .number _
  · split
    · exact .date _
    · exact .string _
  · exact .brokenString _
  · exact .list _
  · exact .any _

theorem Fits.coerce_eq (h : Fits t v) : coerce t v = .ok v := by
  cases h with
  | boolean b => cases b <;> rfl
  | string s | date s => exact congrArg (Except.map Value.str) (Value.spelled_of_isWritable rfl)
  | number | list | brokenString | brokenDate | any => rfl

/-- Generated code writes a value of a type by the value's own type. -/
theorem Fits.source_eq (h : Fits t v) : source t v = v.source := by
  cases h with
  | boolean b =>
    rw [Value.source_of_isWritable rfl]
    cases b <;> rfl
  | string | brokenString | date | brokenDate =>
    rw [Value.source_of_isWritable rfl]
    exact Value.quoted_of_isWritable rfl
  | number | list => rfl
  | any v =>
    unfold source
    split
    · rw [Value.source_of_isWritable rfl]
      rfl
    · rfl

/-! ### Input that has to be written first -/

/-- Raw input of another kind than the declared one is read from its text. -/
def readsText : Dtype → Value → Bool
  | .number, .num _ | .list, .list _ | .boolean, _ | .any, _ => false
  | .number, _ | .list, _ | .string, _ | .date, _ => true

theorem typedText_eq : typedText v = .ofText v.isWritable (if v = .null then "" else v.text) := by
  unfold typedText
  split
  · exact (Spelling.ofText_true "").symm
  · next hnull => rw [if_neg hnull, Value.spelled]

theorem map_typedText_eq_error_iff {f : String → Value} {e : TooManyDigits} :
    (typedText v).map f = .error e ↔ v.isWritable = false := by
  rw [typedText_eq, Outcome.map_eq_error_iff, Spelling.eq_error_iff]

/-- Raw input becomes no value exactly if it would be read from its text and has none. -/
theorem coerce_eq_error_iff {raw : Value} {e : TooManyDigits} :
    coerce t raw = .error e ↔ readsText t raw = true ∧ raw.isWritable = false := by
  unfold coerce readsText
  cases t with
  | number | list =>
    dsimp only
    split
    · simp
    · next hother => simp [map_typedText_eq_error_iff]
  | boolean | any => simp
  | string | date =>
    dsimp only
    split
    · simp [Value.isWritable, Atom.isWritable]
    · simp [map_typedText_eq_error_iff]

end Constant

/-! ### Texts of values that are read as numbers -/

open Numeral

theorem read_empty : read "" = .int 0 := by
  have hbody : Text.strip "".toList = [] := by decide
  unfold Numeral.read
  simp only [hbody, List.isEmpty_nil, if_true]

theorem read_of_isBroken {s : String} (h : Text.isBroken s = true) : read s = .nan := by
  obtain ⟨c, hc, hhalf⟩ := List.any_eq_true.1 h
  exact read_of_foreign hc (isForeign_of_isHalf hhalf)

theorem isDigit_paddedDecimal (width n : Nat) :
    ∀ c ∈ (paddedDecimal width n).toList, c.isDigit = true := by
  intro c hc
  unfold paddedDecimal at hc
  rw [String.toList_ofList, List.mem_append] at hc
  rcases hc with hc | hc
  · rw [List.eq_of_mem_replicate hc]
    decide
  · exact Text.isDigit_toDigits n c hc

theorem exists_paddedDecimal (width n : Nat) :
    ∃ d digits, (paddedDecimal width n).toList = d :: digits ∧ d.isDigit = true := by
  have hne : (paddedDecimal width n).toList ≠ [] := by
    unfold paddedDecimal
    rw [String.toList_ofList]
    exact List.append_ne_nil_of_right_ne_nil _ Nat.toDigits_ne_nil
  obtain ⟨d, digits, h⟩ := List.exists_cons_of_ne_nil hne
  exact ⟨d, digits, h, isDigit_paddedDecimal width n d (h ▸ List.mem_cons_self)⟩

theorem Date.mem_text {d : Date} {c : Char} (hc : c ∈ d.text.toList) :
    c.isDigit = true ∨ c = '-' := by
  simp only [text, String.toList_append, List.mem_append] at hc
  rcases hc with (((hc | hc) | hc) | hc) | hc
  · exact .inl (isDigit_paddedDecimal 4 d.year c hc)
  · exact .inr (by simpa using hc)
  · exact .inl (isDigit_paddedDecimal 2 d.month c hc)
  · exact .inr (by simpa using hc)
  · exact .inl (isDigit_paddedDecimal 2 d.day c hc)

theorem Date.read_text (d : Date) : read d.text = .nan := by
  obtain ⟨first, digits, hyear, hdigit⟩ := exists_paddedDecimal 4 d.year
  have hfirst := toNat_of_isDigit hdigit
  have htext : d.text.toList = first :: (digits ++ '-' :: ((paddedDecimal 2 d.month).toList ++
      '-' :: (paddedDecimal 2 d.day).toList)) := by
    simp [text, hyear]
  have hsign : first ∉ ['+', '-'] := fun h => by
    have hsigns : ∀ c ∈ ['+', '-'], c.toNat < 0x30 := by simp
    have := hsigns first h
    omega
  refine read_of_minus htext (isBlank_of_isDigit hdigit) hsign (by simp) fun c hc hletter => ?_
  have hbounds := toNat_of_letter hletter
  rcases mem_text hc with hc | rfl
  · have := toNat_of_isDigit hc
    omega
  · exact absurd hbounds (by decide)

theorem Moment.read_text (t : Moment) : read (t.textWith " ") = .nan := by
  refine read_of_foreign (c := ':') ?_ (by decide)
  simp [textWith]

theorem read_displayedBytes (bs : List UInt8) : read (Text.displayedBytes bs) = .nan := by
  refine read_of_foreign (c := 'b') ?_ (by decide)
  simp [Text.displayedBytes]

theorem read_truth (b : Bool) : read (if b then "True" else "False") = .nan := by
  cases b with
  | true => exact read_of_foreign (c := 'r') (by decide) (by decide)
  | false => exact read_of_foreign (c := 's') (by decide) (by decide)

theorem read_displaySet (members : List Atom) : read (displaySet members) = .nan := by
  unfold displaySet
  split
  · exact read_of_foreign (c := '(') (by decide) (by decide)
  · exact read_of_foreign (c := '\x7b') (by simp [inBraces]) (by decide)

/-! ### Numbers -/

namespace Constant

theorem exists_bool (h : v.isBool = true) : ∃ b, v = .bool b := by
  unfold Value.isBool at h
  split at h
  · exact ⟨_, rfl⟩
  · cases h

/-- What the text of raw input is read as: the number that the input counts as, but no number for a
truth value. -/
theorem read_typed (hnumber : v.number? = none)
    (hbroken : ∀ s, v = .atom (.broken s) → Text.isBroken s = true) :
    read (if v = .null then "" else v.text) = if v.isBool then .nan else v.asNumber := by
  cases v with
  | atom a =>
    cases a with
    | null => exact read_empty
    | num x => cases hnumber
    | str s =>
      rw [if_neg nofun, if_neg nofun, Value.asNumber, Value.numberOr, Value.asNumber?,
        Option.getD_some]
      rfl
    | bool b => exact read_truth b
    | broken s => exact read_of_isBroken (hbroken s rfl)
    | bytes bs => exact read_displayedBytes bs
    | date d => exact d.read_text
    | moment t => exact t.read_text
  | list items =>
    refine read_of_foreign (c := '[') ?_ (by decide)
    simp [Value.text, Value.display]
  | pair first second =>
    refine read_of_foreign (c := '(') ?_ (by decide)
    simp [Value.text, Value.display]
  | set members => exact read_displaySet members
  | record entries =>
    refine read_of_foreign (c := '\x7b') ?_ (by decide)
    simp [Value.text, Value.display, inBraces]

/-- What raw input becomes as a number, unless it would have to be written and cannot be. -/
theorem coerce_number_eq_ok (hbroken : ∀ s, v = .atom (.broken s) → Text.isBroken s = true)
    (h : v.number?.isSome ∨ v.isWritable = true) :
    coerce .number v = .ok (.num (if v.isBool then .nan else v.asNumber)) := by
  cases hnumber : v.number? with
  | some x =>
    obtain rfl : v = .num x := by
      unfold Value.number? at hnumber
      split at hnumber
      · rw [Option.some.inj hnumber]
      · cases hnumber
    rfl
  | none =>
    have hwritable : v.isWritable = true := by simpa [hnumber] using h
    have hcoerce : coerce .number v = (typedText v).map fun text => .num (read text) := by
      unfold coerce
      dsimp only
      split
      · cases hnumber
      · rfl
    rw [hcoerce, typedText_eq, hwritable, Spelling.ofText_true, ← read_typed hnumber hbroken]
    rfl

theorem coerce_number_eq_error_iff :
    coerce .number v = .error ⟨⟩ ↔ v.number? = none ∧ v.isWritable = false := by
  rw [coerce_eq_error_iff]
  refine and_congr_left fun _ => ?_
  unfold readsText Value.number?
  split <;> simp_all

/-- **Raw input becomes the number that it counts as.**  Raw input that is no number becomes nothing
if an integer in it has too many digits for the text that it is read from.  All other raw input is
stored as the number that an input for numbers takes it for, and counts as the same number there,
exactly if it is no truth value.  A truth value is stored as no number. -/
theorem coerce_number_iff (v : Value)
    (hbroken : ∀ s, v = .atom (.broken s) → Text.isBroken s = true) :
    (coerce .number v = .error ⟨⟩ ↔ v.number? = none ∧ v.isWritable = false) ∧
    (coerce .number v ≠ .error ⟨⟩ → ∃ stored, coerce .number v = .ok stored ∧
      (stored = .num v.asNumber ↔ v.isBool = false) ∧
      (stored.asNumber = v.asNumber ↔ v.isBool = false)) ∧
    (v.isBool = true → coerce .number v = .ok (.num .nan)) := by
  refine ⟨coerce_number_eq_error_iff, fun h => ?_, fun hbool => ?_⟩
  · have hwritable : v.number?.isSome ∨ v.isWritable = true := by
      by_contra hnot
      exact h (coerce_number_eq_error_iff.2 (by simpa using hnot))
    refine ⟨_, coerce_number_eq_ok hbroken hwritable, ?_⟩
    cases hv : v.isBool with
    | false => exact ⟨by simp, by simp [Value.asNumber, Value.numberOr, Value.asNumber?]⟩
    | true =>
      obtain ⟨b, rfl⟩ := exists_bool hv
      exact ⟨⟨nofun, nofun⟩, ⟨nofun, nofun⟩⟩
  · obtain ⟨b, rfl⟩ := exists_bool hbool
    exact coerce_number_eq_ok hbroken (.inr rfl)

/-- The half of a surrogate pair, as a text. -/
def half : String := String.ofList [Text.charOfCode 0xD800]

theorem coerce_number_half : Text.isBroken half = true ∧
    ∃ stored, coerce .number (.atom (.broken half)) = .ok stored ∧
      stored = .num (Value.asNumber (.atom (.broken half))) := by
  have hhalf : Text.isBroken half = true := by decide
  have hbroken (s : String) (h : Value.atom (.broken half) = .atom (.broken s)) :
      Text.isBroken s = true := by
    obtain rfl : half = s := by simpa using h
    exact hhalf
  obtain ⟨hfails, hstored, -⟩ := coerce_number_iff (.atom (.broken half)) hbroken
  obtain ⟨stored, hcoerce, hnumber, -⟩ := hstored fun h => absurd (hfails.1 h).2 (by decide)
  exact ⟨hhalf, stored, hcoerce, hnumber.2 rfl⟩

/-- The truth value that counts as one is stored as no number. -/
theorem truth_stored_as_no_number : coerce .number (.bool true) = .ok (.num .nan) ∧
    (Value.bool true).asNumber = .int 1 ∧
    coerce .number (.bool true) ≠ .ok (.num (Value.bool true).asNumber) := by
  have hcoerce : coerce .number (.bool true) = .ok (.num .nan) :=
    coerce_number_eq_ok nofun (.inr rfl)
  exact ⟨hcoerce, rfl, by rw [hcoerce]; nofun⟩

end Constant

end NodeFlow
