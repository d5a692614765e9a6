import NodeFlow.Number.Numeral
import NodeFlow.Schema.Issue
import NodeFlow.Text.Blank

/-!
# Numerals in documents

A document may hold a number as a text. White space around it does not count. Doubles have their
usual numerals, with underscores anywhere inside them. Integers have digits, with needless zeros and
underscores before and among them, and perhaps zeros after a point.
-/

namespace NodeFlow.Schema

/-- A text without underscores, each of which must stand between two other characters. -/
def withoutUnderscores? (s : List Char) : Option (List Char) :=
  let pieces := s.splitOn '_'
  if pieces.any (·.isEmpty) then none else some pieces.flatten

/-! ### Doubles -/

/-- Reads the numeral of a double. One with underscores has no white space around it. -/
def readDouble (s : String) : Checked Float :=
  let body := if s.contains '_' then withoutUnderscores? s.toList else some (Text.trim s.toList)
  let isAscii (s : List Char) : Bool := s.all (·.toNat < 0x80)
  match body.bind fun cs => if isAscii cs then Numeral.float? cs else none with
  | some x => .ok x
  | none => .fail .unreadableDouble

/-! ### Integers -/

/-- Reads digits without needless zeros, perhaps after a minus sign. All together they may not be
more characters than an integer may have digits. -/
def readDigits (s : List Char) : Checked Int :=
  let negative := s.head? == some '-'
  let body := if negative then s.drop 1 else s
  let digits := body.takeWhile Char.isDigit
  let size : Nat := Numeral.value (digits.map fun c => c.toNat - '0'.toNat)
  if body = ['0'] then .ok 0
  else if digits.isEmpty ∨ digits.head? = some '0' then .fail .unreadableInteger
  else if Numeral.digitLimit < (if negative then 1 else 0) + digits.length then .fail .longInteger
  else if digits ≠ body then .fail .unreadableInteger
  else .ok (if negative then -(size : Int) else size)

/-- A text without its plus sign, which no minus sign may follow. -/
def withoutPlus? : List Char → Option (List Char)
  | '+' :: '-' :: _ => none
  | '+' :: rest => some rest
  | s => some s

/-- Whether a character may begin an integer without needless zeros. -/
def isLeading (c : Char) : Bool := c == '-' || ('1' ≤ c && c ≤ '9')

/-- The rest of a text after some zeros and underscores, of which the last is given. It stays when
there is nothing else, and before a point. -/
def afterZeros? (last : Char) : List Char → Option (List Char)
  | [] => some [last]
  | c :: rest =>
    if c = '0' ∨ c = '_' then afterZeros? c rest
    else if isLeading c then some (c :: rest)
    else if c = '.' then some (last :: c :: rest)
    else none

/-- A text without the needless zeros at its start, and without the underscores among them. -/
def withoutZeros? : List Char → Option (List Char)
  | [] => none
  | c :: rest =>
    if c = '0' then afterZeros? c rest else if isLeading c then some (c :: rest) else none

/-- A text without a point and the zeros after it. -/
def withoutPlaces (s : List Char) : List Char :=
  let places := (s.dropWhile (· != '.')).drop 1
  if !places.isEmpty && places.all (· == '0') then s.takeWhile (· != '.') else s

/-- Reads the numeral of an integer. -/
def readInteger (s : String) : Checked Int :=
  match (withoutPlus? (Text.trim s.toList)).bind withoutZeros? with
  | none => .fail .unreadableInteger
  | some body =>
    let whole := withoutPlaces body
    readDigits ((withoutUnderscores? whole).getD whole)

end NodeFlow.Schema
