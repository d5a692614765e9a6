import NodeFlow.Number.Basic
import NodeFlow.Text.Blank
import NodeFlow.Text.Digit

/-!
# Reading numbers

The grammar of a number in free text, with blanks around it ignored. An integer is an optional sign
and decimal digits of any script, with single underscores allowed between digits. A decimal adds a
point, an exponent, and the words for infinity and for no number. Text that is no numeral reads as
no number, and blank text as zero.
-/

namespace NodeFlow.Numeral

/-- The most digits an integer may be read from. -/
def digitLimit : Nat := 4300

/-- Digits after a digit: more digits, each perhaps after one underscore. -/
def moreDigits? : List Char → Option (List Nat)
  | [] => some []
  | '_' :: c :: rest => do return (← Text.digitValue? c) :: (← moreDigits? rest)
  | c :: rest => do return (← Text.digitValue? c) :: (← moreDigits? rest)

/-- A text of at least one digit, with single underscores between digits. -/
def digits? : List Char → Option (List Nat)
  | [] => none
  | c :: rest => do return (← Text.digitValue? c) :: (← moreDigits? rest)

/-- The value of digits, the most significant first. -/
def value (digits : List Nat) : Nat := digits.foldl (fun n d => 10 * n + d) 0

/-- A text without its sign, and whether the sign was a minus. -/
def unsigned : List Char → Bool × List Char
  | '-' :: rest => (true, rest)
  | '+' :: rest => (false, rest)
  | s => (false, s)

/-- Reads an integer of at most `digitLimit` digits. -/
def int? (s : List Char) : Option Int := do
  let (negative, body) := unsigned s
  let digits ← digits? body
  guard (digits.length ≤ digitLimit)
  return if negative then -(value digits : Int) else value digits

/-- Digits that may be missing. -/
def optionalDigits? (s : List Char) : Option (List Nat) :=
  if s.isEmpty then some [] else digits? s

/-- The exponent after a mantissa: nothing, or `e` and an integer. -/
def exponent? : List Char → Option Int
  | [] => some 0
  | _ :: rest => do
    let (negative, body) := unsigned rest
    let digits ← digits? body
    return if negative then -(value digits : Int) else value digits

/-- Reads an unsigned decimal: digits with a point among them or not, and perhaps an exponent. -/
def decimal? (negative : Bool) (s : List Char) : Option Float := do
  let isMark (c : Char) : Bool := c == 'e' || c == 'E'
  let mantissa := s.takeWhile (!isMark ·)
  let whole ← optionalDigits? (mantissa.takeWhile (· != '.'))
  let fraction ← optionalDigits? ((mantissa.dropWhile (· != '.')).drop 1)
  guard (!(whole ++ fraction).isEmpty)
  let exponent ← exponent? (s.dropWhile (!isMark ·))
  return Binary.ofDecimal negative (value (whole ++ fraction)) (exponent - fraction.length)

/-- Reads a decimal, an infinity or the word for no number, the words in either case. -/
def float? (s : List Char) : Option Float :=
  let (negative, body) := unsigned s
  let word := String.ofList (body.map Char.toLower)
  if word == "inf" || word == "infinity" then some (Binary.infinity negative)
  else if word == "nan" then some Binary.nan
  else decimal? negative body

/-- The number that a free text stands for: zero when blank, no number when it is no numeral. -/
def read (s : String) : Number :=
  let body := Text.strip s.toList
  if body.isEmpty then .int 0
  else match int? body with
    | some n => .int n
    | none => match float? body with
      | some x => .float x
      | none => .nan

end NodeFlow.Numeral
