import NodeFlow.Number.Numeral
import NodeFlow.Value.Basic

/-!
# Reading JSON

The reader of list literals. It takes JSON with three additions: the words for no number and for the
two infinities. Integers are exact up to a limit of digits. A key that comes twice keeps its first
place and its last value.
-/

namespace NodeFlow.Json

/-- Whether a character may stand between the parts of a text. -/
def isGap (c : Char) : Bool := c == ' ' || c == '\t' || c == '\n' || c == '\r'

/-- A text without the gap at its head. -/
def skipGap (s : List Char) : List Char := s.dropWhile isGap

/-- The rest of a text after a word it begins with. -/
def after? : List Char → List Char → Option (List Char)
  | [], s => some s
  | _ :: _, [] => none
  | c :: word, d :: s => if c = d then after? word s else none

/-- The value of a hexadecimal digit. -/
def hexValue? (c : Char) : Option Nat :=
  if c.isDigit then some (c.toNat - '0'.toNat)
  else if 'a' ≤ c ∧ c ≤ 'f' then some (c.toNat - 'a'.toNat + 10)
  else if 'A' ≤ c ∧ c ≤ 'F' then some (c.toNat - 'A'.toNat + 10)
  else none

/-- The value of four hexadecimal digits at the head of a text, and the rest. -/
def fourHex? : List Char → Option (Nat × List Char)
  | a :: b :: c :: d :: rest => do
    let value := (← hexValue? a) * 4096 + (← hexValue? b) * 256 + (← hexValue? c) * 16
      + (← hexValue? d)
    return (value, rest)
  | _ => none

/-- The character of a code escape whose four digits have the given value, and the rest. The two
halves of a surrogate pair make one character. -/
def codeEscape (code : Nat) (rest : List Char) : Char × List Char :=
  if 0xD800 ≤ code ∧ code < 0xDC00 then
    match (after? ['\\', 'u'] rest).bind fourHex? with
    | some (low, others) =>
      if 0xDC00 ≤ low ∧ low < 0xE000 then
        (Char.ofNat (0x10000 + (code - 0xD800) * 0x400 + (low - 0xDC00)), others)
      else (Text.charOfCode code, rest)
    | none => (Text.charOfCode code, rest)
  else (Text.charOfCode code, rest)

/-- The character of an escape with one letter. -/
def letterEscape? (c : Char) : Option Char :=
  match c with
  | '"' => some '"'
  | '\\' => some '\\'
  | '/' => some '/'
  | 'b' => some '\x08'
  | 'f' => some '\x0c'
  | 'n' => some '\n'
  | 'r' => some '\r'
  | 't' => some '\t'
  | _ => none

/-- The character that the inside of a string begins with, its closing quote being `none`, and the
rest. Control characters are refused. -/
def stringPart? : List Char → Option (Option Char × List Char)
  | '"' :: rest => some (none, rest)
  | '\\' :: 'u' :: rest => do
    let (code, rest) ← fourHex? rest
    let (c, rest) := codeEscape code rest
    return (some c, rest)
  | '\\' :: letter :: rest => (letterEscape? letter).map fun c => (some c, rest)
  | c :: rest => if c.toNat < 0x20 then none else some (some c, rest)
  | [] => none

theorem length_le_of_after? {word s rest : List Char} (h : after? word s = some rest) :
    rest.length ≤ s.length := by
  fun_induction after? word s with
  | case1 => cases h; exact Nat.le_refl _
  | case2 => cases h
  | case3 _ _ _ ih => exact Nat.le_succ_of_le (ih h)
  | case4 => cases h

theorem length_le_of_fourHex? {s rest : List Char} {n : Nat} (h : fourHex? s = some (n, rest)) :
    rest.length ≤ s.length := by
  unfold fourHex? at h
  split at h
  · simp only [bind, Option.bind_eq_some_iff, pure, Option.some.injEq, Prod.mk.injEq] at h
    obtain ⟨_, _, _, _, _, _, _, _, _, rfl⟩ := h
    simp only [List.length_cons]
    omega
  · cases h

theorem length_codeEscape_le (code : Nat) (rest : List Char) :
    (codeEscape code rest).2.length ≤ rest.length := by
  unfold codeEscape
  repeat' split
  · next h _ =>
    obtain ⟨_, ha, hf⟩ := Option.bind_eq_some_iff.1 h
    exact Nat.le_trans (length_le_of_fourHex? hf) (length_le_of_after? ha)
  all_goals exact Nat.le_refl _

/-- Every part of a string takes a character. -/
theorem length_lt_of_stringPart? {s rest : List Char} {c : Option Char}
    (h : stringPart? s = some (c, rest)) : rest.length < s.length := by
  unfold stringPart? at h
  split at h
  · cases h
    exact Nat.lt_succ_self _
  · next others =>
    simp only [bind, Option.bind_eq_some_iff, pure, Option.some.injEq, Prod.mk.injEq] at h
    obtain ⟨⟨code, others'⟩, hf, _, rfl⟩ := h
    have := length_le_of_fourHex? hf
    have := length_codeEscape_le code others'
    simp only [List.length_cons]
    omega
  · obtain ⟨_, _, hr⟩ := Option.map_eq_some_iff.1 h
    cases hr
    simp only [List.length_cons]
    omega
  · split at h
    · cases h
    · cases h
      exact Nat.lt_succ_self _
  · cases h

/-- The characters of a string up to its closing quote, and the rest. -/
def string? (s : List Char) : Option (List Char × List Char) :=
  match _h : stringPart? s with
  | none => none
  | some (none, rest) => some ([], rest)
  | some (some c, rest) => (string? rest).map fun (cs, rest) => (c :: cs, rest)
termination_by s.length
decreasing_by exact length_lt_of_stringPart? _h

/-- The digits at the head of a text, and the rest. -/
def digitRun (s : List Char) : List Char × List Char :=
  (s.takeWhile Char.isDigit, s.dropWhile Char.isDigit)

/-- The value of decimal digits. -/
def digitsValue (digits : List Char) : Nat :=
  Numeral.value (digits.map fun c => c.toNat - '0'.toNat)

/-- The digits of a fraction at the head of a text, if there is one, and the rest. -/
def fraction : List Char → List Char × List Char
  | '.' :: rest =>
    match digitRun rest with
    | ([], _) => ([], '.' :: rest)
    | found => found
  | s => ([], s)

/-- The exponent at the head of a text, if there is one, and the rest. -/
def exponent : List Char → Option Int × List Char
  | [] => (none, [])
  | mark :: s =>
    if mark = 'e' ∨ mark = 'E' then
      let (negative, body) := Numeral.unsigned s
      match digitRun body with
      | ([], _) => (none, mark :: s)
      | (digits, rest) =>
        (some (if negative then -(digitsValue digits : Int) else digitsValue digits), rest)
    else (none, mark :: s)

/-- The number at the head of a text without its sign, and the rest. A number with a fraction or an
exponent is a double. -/
def number? (negative : Bool) (s : List Char) : Option (Number × List Char) :=
  let (whole, rest) :=
    match s with
    | '0' :: rest => (['0'], rest)
    | s => digitRun s
  if whole.isEmpty then none
  else
    let (places, afterFraction) := fraction rest
    let (power, afterExponent) := exponent afterFraction
    if places.isEmpty && power.isNone then
      if Numeral.digitLimit < whole.length then none
      else
        let n : Int := digitsValue whole
        some (.int (if negative then -n else n), afterExponent)
    else
      let x := Binary.ofDecimal negative (digitsValue (whole ++ places))
        (power.getD 0 - places.length)
      some (.float x, afterExponent)

mutual

/-- The value at the head of a text, and the rest. -/
def value? : Nat → List Char → Option (Value × List Char)
  | 0, _ => none
  | fuel + 1, s =>
    match s with
    | '"' :: rest => (string? rest).map fun (cs, rest) =>
      (.atom (.ofText (String.ofList cs)), rest)
    | '[' :: rest =>
      match skipGap rest with
      | ']' :: rest => some (.list [], rest)
      | rest => (items? fuel rest).map fun (items, rest) => (.list items, rest)
    | '\x7b' :: rest =>
      match skipGap rest with
      | '\x7d' :: rest => some (.record [], rest)
      | rest => (entries? fuel rest).map fun (entries, rest) =>
        (.record (Record.ofEntries entries), rest)
    | '-' :: rest =>
      match after? "Infinity".toList rest with
      | some rest => some (.float (Binary.infinity true), rest)
      | none => (number? true rest).map fun (x, rest) => (.num x, rest)
    | s =>
      match after? "null".toList s, after? "true".toList s, after? "false".toList s,
        after? "NaN".toList s, after? "Infinity".toList s with
      | some rest, _, _, _, _ => some (.null, rest)
      | _, some rest, _, _, _ => some (.bool true, rest)
      | _, _, some rest, _, _ => some (.bool false, rest)
      | _, _, _, some rest, _ => some (.float Binary.nan, rest)
      | _, _, _, _, some rest => some (.float (Binary.infinity false), rest)
      | _, _, _, _, _ => (number? false s).map fun (x, rest) => (.num x, rest)

/-- The items of a list from the first of them up to the closing bracket, and the rest. -/
def items? : Nat → List Char → Option (List Value × List Char)
  | 0, _ => none
  | fuel + 1, s => do
    let (v, rest) ← value? fuel s
    match skipGap rest with
    | ',' :: rest =>
      let (vs, rest) ← items? fuel (skipGap rest)
      return (v :: vs, rest)
    | ']' :: rest => return ([v], rest)
    | _ => none

/-- The entries of a record from the first of them up to the closing bracket, and the rest. -/
def entries? : Nat → List Char → Option (List (Atom × Value) × List Char)
  | 0, _ => none
  | fuel + 1, s =>
    match s with
    | '"' :: s => do
      let (key, rest) ← string? s
      match skipGap rest with
      | ':' :: rest =>
        let (v, rest) ← value? fuel (skipGap rest)
        let entry := (Atom.ofText (String.ofList key), v)
        match skipGap rest with
        | ',' :: rest =>
          let (others, rest) ← entries? fuel (skipGap rest)
          return (entry :: others, rest)
        | '\x7d' :: rest => return ([entry], rest)
        | _ => none
      | _ => none
    | _ => none

end

/-- The value of a whole text; `none` when it is not JSON. Every step of the reader but one goes
past a character, so twice the length of the text is fuel enough. -/
def read? (s : String) : Option Value := do
  let text := s.toList
  let (v, rest) ← value? (2 * text.length + 1) (skipGap text)
  guard (skipGap rest).isEmpty
  return v

end NodeFlow.Json
