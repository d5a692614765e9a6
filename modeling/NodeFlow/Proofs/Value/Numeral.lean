import Mathlib.Data.List.TakeWhile
import NodeFlow.Number.Numeral
import NodeFlow.Text.Broken

/-!
# Texts that are no numerals

A numeral is made of digits, underscores and points, of a few letters and of signs: one before it,
and one behind a mark of an exponent.  A text that has any other character, or a sign elsewhere,
reads as no number (`Numeral.read_eq_nan`).
-/

namespace NodeFlow

/-! ### Characters of a text and of its parts -/

namespace Text

variable {c : Char} {s : List Char}

theorem isDigit_of_digitValue? {v : Nat} (h : digitValue? c = some v) : isDigit c = true := by
  rw [isDigit, h]
  rfl

theorem isBlank_eq_false (h : ∀ range ∈ blanks, c.toNat < range.1 ∨ range.2 < c.toNat) :
    isBlank c = false := by
  refine List.any_eq_false.2 fun range hrange => ?_
  have := h range hrange
  simp only [Bool.and_eq_true, decide_eq_true_eq]
  omega

theorem mem_or_mem {p : Char → Bool} (hc : c ∈ s) : c ∈ s.takeWhile p ∨ c ∈ s.dropWhile p := by
  rwa [← List.takeWhile_append_dropWhile (p := p) (l := s), List.mem_append] at hc

theorem mem_dropWhile {p : Char → Bool} (hc : c ∈ s) (hp : p c = false) : c ∈ s.dropWhile p := by
  rcases mem_or_mem (p := p) hc with hc | hc
  · exact absurd (List.mem_takeWhile_imp hc) (by simp [hp])
  · exact hc

theorem exists_of_mem_dropWhile {p : Char → Bool} (hc : c ∈ s.dropWhile p) :
    ∃ d rest, s.dropWhile p = d :: rest ∧ p d = false ∧ (c = d ∨ c ∈ rest) := by
  cases h : s.dropWhile p with
  | nil =>
    rw [h] at hc
    cases hc
  | cons d rest =>
    have hd := List.head?_dropWhile_not p s
    rw [h] at hc hd
    exact ⟨d, rest, rfl, by simpa using hd, List.mem_cons.1 hc⟩

theorem mem_strip (hc : c ∈ s) (hblank : isBlank c = false) : c ∈ strip s := by
  unfold strip stripOf
  rw [List.mem_reverse]
  refine mem_dropWhile ?_ hblank
  rw [List.mem_reverse]
  exact mem_dropWhile hc hblank

theorem exists_strip_cons (hblank : isBlank c = false) (s : List Char) :
    ∃ s', strip (c :: s) = c :: s' := by
  have hfirst : (c :: s).dropWhile isBlank = c :: s := by simp [hblank]
  have hlast : [c].dropWhile isBlank = [c] := by simp [hblank]
  unfold strip stripOf
  rw [hfirst, List.reverse_cons, List.dropWhile_append]
  split
  · exact ⟨[], by rw [hlast]; rfl⟩
  · exact ⟨_, by rw [List.reverse_append]; rfl⟩

end Text

namespace Numeral

variable {c : Char} {s : List Char}

/-! ### What numerals are made of -/

/-- The letters of the words for numbers and of exponents, in lower case. -/
def letters : List Char := ['i', 'n', 'f', 't', 'y', 'a', 'e']

theorem mem_of_moreDigits? {digits : List Nat} (h : moreDigits? s = some digits) (hc : c ∈ s) :
    Text.isDigit c = true ∨ c = '_' := by
  induction s using moreDigits?.induct generalizing digits with
  | case1 => cases hc
  | case2 d rest ih =>
    simp only [moreDigits?, Option.bind_eq_bind, Option.bind_eq_some_iff] at h
    obtain ⟨v, hv, others, hothers, -⟩ := h
    rcases List.mem_cons.1 hc with rfl | hc
    · exact .inr rfl
    · rcases List.mem_cons.1 hc with rfl | hc
      · exact .inl (Text.isDigit_of_digitValue? hv)
      · exact ih hothers hc
  | case3 d rest hnot ih =>
    simp only [moreDigits?, Option.bind_eq_bind, Option.bind_eq_some_iff] at h
    obtain ⟨v, hv, others, hothers, -⟩ := h
    rcases List.mem_cons.1 hc with rfl | hc
    · exact .inl (Text.isDigit_of_digitValue? hv)
    · exact ih hothers hc

theorem mem_of_digits? {digits : List Nat} (h : digits? s = some digits) (hc : c ∈ s) :
    Text.isDigit c = true ∨ c = '_' := by
  cases s with
  | nil => cases hc
  | cons d rest =>
    simp only [digits?, Option.bind_eq_bind, Option.bind_eq_some_iff] at h
    obtain ⟨v, hv, others, hothers, -⟩ := h
    rcases List.mem_cons.1 hc with rfl | hc
    · exact .inl (Text.isDigit_of_digitValue? hv)
    · exact mem_of_moreDigits? hothers hc

theorem mem_of_optionalDigits? {digits : List Nat} (h : optionalDigits? s = some digits)
    (hc : c ∈ s) : Text.isDigit c = true ∨ c = '_' := by
  unfold optionalDigits? at h
  by_cases hempty : s.isEmpty = true
  · rw [List.isEmpty_iff.1 hempty] at hc
    cases hc
  · rw [if_neg hempty] at h
    exact mem_of_digits? h hc

theorem mem_unsigned (hc : c ∈ s) (hsign : c ∉ ['+', '-']) : c ∈ (unsigned s).2 := by
  unfold unsigned
  split
  · simp_all
  · simp_all
  · exact hc

theorem mem_of_mem_unsigned (hc : c ∈ (unsigned s).2) : c ∈ s := by
  unfold unsigned at hc
  split at hc
  · exact List.mem_cons_of_mem _ hc
  · exact List.mem_cons_of_mem _ hc
  · exact hc

theorem mem_of_int? {n : Int} (h : int? s = some n) (hc : c ∈ (unsigned s).2) :
    Text.isDigit c = true ∨ c = '_' := by
  unfold int? at h
  obtain ⟨digits, hdigits, -⟩ := Option.bind_eq_some_iff.1 h
  exact mem_of_digits? hdigits hc

theorem mem_of_exponent? {n : Int} {mark : Char} (h : exponent? (mark :: s) = some n)
    (hc : c ∈ s) : Text.isDigit c = true ∨ c = '_' ∨ c ∈ ['+', '-'] := by
  by_cases hsign : c ∈ ['+', '-']
  · exact .inr (.inr hsign)
  · simp only [exponent?, Option.bind_eq_bind, Option.bind_eq_some_iff] at h
    obtain ⟨digits, hdigits, -⟩ := h
    rcases mem_of_digits? hdigits (mem_unsigned hc hsign) with hdigit | hdigit
    · exact .inl hdigit
    · exact .inr (.inl hdigit)

/-- A character stands in the text of a decimal: a digit, an underscore, the point, a letter, or a
sign if there is a letter. -/
def Stands (s : List Char) (c : Char) : Prop :=
  Text.isDigit c = true ∨ c ∈ ['_', '.'] ∨ c.toLower ∈ letters ∨
    c ∈ ['+', '-'] ∧ ∃ d ∈ s, d.toLower ∈ letters

theorem Stands.of_digits (h : Text.isDigit c = true ∨ c = '_') : Stands s c := by
  rcases h with h | rfl
  · exact .inl h
  · exact .inr (.inl (by decide))

theorem stands_of_decimal? {negative : Bool} {x : Float} (h : decimal? negative s = some x)
    (hc : c ∈ s) : Stands s c := by
  unfold decimal? at h
  obtain ⟨whole, hwhole, h⟩ := Option.bind_eq_some_iff.1 h
  obtain ⟨fraction, hfraction, h⟩ := Option.bind_eq_some_iff.1 h
  obtain ⟨-, -, h⟩ := Option.bind_eq_some_iff.1 h
  obtain ⟨exponent, hexponent, -⟩ := Option.bind_eq_some_iff.1 h
  rcases Text.mem_or_mem hc with hmantissa | hrest
  · rcases Text.mem_or_mem hmantissa with hc | hc
    · exact .of_digits (mem_of_optionalDigits? hwhole hc)
    · obtain ⟨point, rest, heq, hpoint, hc⟩ := Text.exists_of_mem_dropWhile hc
      rw [heq] at hfraction
      obtain rfl : point = '.' := by simpa using hpoint
      rcases hc with rfl | hc
      · exact .inr (.inl (by decide))
      · exact .of_digits (mem_of_optionalDigits? hfraction hc)
  · obtain ⟨mark, rest, heq, hmark, hc⟩ := Text.exists_of_mem_dropWhile hrest
    rw [heq] at hexponent
    have hletter : mark.toLower ∈ letters := by
      simp only [Bool.not_eq_false', Bool.or_eq_true, beq_iff_eq] at hmark
      rcases hmark with rfl | rfl <;> decide
    have hmem : mark ∈ s := List.dropWhile_subset _ (heq ▸ List.mem_cons_self)
    rcases hc with rfl | hc
    · exact .inr (.inr (.inl hletter))
    · rcases mem_of_exponent? hexponent hc with hc | hc | hc
      · exact .inl hc
      · exact .of_digits (.inr hc)
      · exact .inr (.inr (.inr ⟨hc, mark, hmem, hletter⟩))

theorem stands_of_word {word : String} (hword : ∀ c ∈ word.toList, c ∈ letters)
    (h : String.ofList (s.map Char.toLower) = word) (hc : c ∈ s) : Stands s c := by
  have hmap : s.map Char.toLower = word.toList := by rw [← h, String.toList_ofList]
  exact .inr (.inr (.inl (hword _ (hmap ▸ List.mem_map_of_mem hc))))

theorem stands_of_float? {x : Float} (h : float? s = some x) (hc : c ∈ (unsigned s).2) :
    Stands (unsigned s).2 c := by
  unfold float? at h
  dsimp only at h
  split at h
  · next hword =>
    rcases Bool.or_eq_true_iff.1 hword with hword | hword
    · exact stands_of_word (by simp [letters]) (beq_iff_eq.1 hword) hc
    · exact stands_of_word (by simp [letters]) (beq_iff_eq.1 hword) hc
  · split at h
    · next hword => exact stands_of_word (by simp [letters]) (beq_iff_eq.1 hword) hc
    · exact stands_of_decimal? h hc

/-! ### Texts that read as no number -/

/-- A text with a character behind its sign that does not stand in a decimal reads as no number. -/
theorem read_eq_nan {text : String} (hc : c ∈ (unsigned (Text.strip text.toList)).2)
    (hstands : ¬ Stands (unsigned (Text.strip text.toList)).2 c) : read text = .nan := by
  have hmem : c ∈ Text.strip text.toList := mem_of_mem_unsigned hc
  have hint : int? (Text.strip text.toList) = none := Option.eq_none_iff_forall_ne_some.2
    fun n h => hstands (.of_digits (mem_of_int? h hc))
  have hfloat : float? (Text.strip text.toList) = none := Option.eq_none_iff_forall_ne_some.2
    fun x h => hstands (stands_of_float? h hc)
  have hempty : (Text.strip text.toList).isEmpty = false :=
    List.isEmpty_eq_false_iff.2 (List.ne_nil_of_mem hmem)
  unfold read
  simp only [hempty, hint, hfloat, Bool.false_eq_true, if_false]

/-- A character stands in no numeral and not around one. -/
def isForeign (c : Char) : Bool :=
  !Text.isDigit c && !Text.isBlank c && !(['_', '.', '+', '-'].contains c)
    && !letters.contains c.toLower

theorem read_of_foreign {text : String} (hc : c ∈ text.toList) (h : isForeign c = true) :
    read text = .nan := by
  simp only [isForeign, Bool.and_eq_true, Bool.not_eq_true', List.contains_eq_mem,
    decide_eq_false_iff_not] at h
  obtain ⟨⟨⟨hdigit, hblank⟩, hmark⟩, hletter⟩ := h
  have hsign : c ∉ ['+', '-'] := by simp_all
  refine read_eq_nan (mem_unsigned (Text.mem_strip hc hblank) hsign) fun hstands => ?_
  rcases hstands with h | h | h | h
  · simp [hdigit] at h
  · simp_all
  · exact hletter h
  · exact hsign h.1

/-- A text with a minus behind a first character that is neither blank nor a sign, and without
letters, reads as no number. -/
theorem read_of_minus {text : String} {first : Char} {rest : List Char}
    (htext : text.toList = first :: rest) (hblank : Text.isBlank first = false)
    (hfirst : first ∉ ['+', '-']) (hminus : '-' ∈ rest)
    (hletters : ∀ c ∈ text.toList, c.toLower ∉ letters) : read text = .nan := by
  obtain ⟨rest', hstrip⟩ := Text.exists_strip_cons hblank rest
  have hbody : unsigned (first :: rest') = (false, first :: rest') := by
    unfold unsigned
    split <;> simp_all
  have hmem : '-' ∈ Text.strip text.toList :=
    Text.mem_strip (htext ▸ List.mem_cons_of_mem first hminus) (by decide)
  refine read_eq_nan (c := '-') ?_ fun hstands => ?_
  · rwa [htext, hstrip, hbody, ← hstrip, ← htext]
  · rcases hstands with h | h | h | ⟨-, d, hd, hletter⟩
    · exact absurd h (by decide)
    · exact absurd h (by decide)
    · exact absurd h (by decide)
    · exact hletters d (Text.mem_of_mem_stripOf (mem_of_mem_unsigned hd)) hletter

/-! ### Letters, digits and halves of surrogate pairs -/

theorem toNat_of_letter (h : c.toLower ∈ letters) : 0x41 ≤ c.toNat ∧ c.toNat < 0x80 := by
  have hletters : ∀ d ∈ letters, 0x41 ≤ d.toNat ∧ d.toNat < 0x80 := by simp [letters]
  have hlower := hletters _ h
  unfold Char.toLower at hlower
  split at hlower
  · next hupper =>
    have hle : c.toNat ≤ 0x5A := hupper.2
    exact ⟨hupper.1, by omega⟩
  · exact hlower

theorem toNat_of_isDigit (h : c.isDigit = true) : 0x30 ≤ c.toNat ∧ c.toNat < 0x3A := by
  simp only [Char.isDigit, Bool.and_eq_true, decide_eq_true_eq] at h
  exact ⟨h.1, Nat.lt_succ_of_le h.2⟩

theorem isBlank_of_isDigit (h : c.isDigit = true) : Text.isBlank c = false := by
  have hbounds := toNat_of_isDigit h
  have hblanks : ∀ range ∈ Text.blanks, range.2 < 0x30 ∨ 0x3A ≤ range.1 := by decide
  refine Text.isBlank_eq_false fun range hrange => ?_
  have := hblanks range hrange
  omega

theorem isForeign_of_le (h : 0x20000 ≤ c.toNat) : isForeign c = true := by
  have hdigits : ∀ first ∈ Text.zeroDigits, first + 10 ≤ 0x20000 := by decide
  have hblanks : ∀ range ∈ Text.blanks, range.2 < 0x20000 := by decide
  have hmarks : ∀ d ∈ ['_', '.', '+', '-'], d.toNat < 0x80 := by simp
  have hdigit : Text.isDigit c = false := by
    unfold Text.isDigit Text.digitValue?
    rw [Option.isSome_map, List.isSome_find?, List.any_eq_false]
    intro first hfirst
    have := hdigits first hfirst
    simp only [Bool.and_eq_true, decide_eq_true_eq]
    omega
  have hblank : Text.isBlank c = false := by
    refine Text.isBlank_eq_false fun range hrange => ?_
    have := hblanks range hrange
    omega
  have hmark : c ∉ ['_', '.', '+', '-'] := fun hc => by
    have := hmarks c hc
    omega
  have hletter : c.toLower ∉ letters := fun hc => by
    have := toNat_of_letter hc
    omega
  simp only [isForeign, hdigit, hblank, List.contains_eq_mem, decide_eq_false hmark,
    decide_eq_false hletter, Bool.not_false, Bool.and_self]

theorem isForeign_of_isHalf (h : Text.isHalf (Text.codeOf c) = true) : isForeign c = true := by
  have hhalf {code : Nat} (h : Text.isHalf code = true) : 0xD800 ≤ code ∧ code < 0xE000 := by
    simpa [Text.isHalf] using h
  refine isForeign_of_le ?_
  unfold Text.codeOf at h
  split at h
  · have hcode := hhalf h
    unfold Text.standIn at hcode
    omega
  · have hcode := hhalf h
    have hvalid : c.toNat < 0xD800 ∨ 0xDFFF < c.toNat ∧ c.toNat < 0x110000 := c.valid
    omega

end Numeral

end NodeFlow
