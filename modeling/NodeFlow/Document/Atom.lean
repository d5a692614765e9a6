import NodeFlow.Document.Base64
import NodeFlow.Document.Fault
import NodeFlow.Document.Implicit
import NodeFlow.Json
import NodeFlow.Number.Numeral
import NodeFlow.Text.Lower
import NodeFlow.Value.Basic

/-!
# Texts with a tag

The atom that a text stands for by its tag: a number, a truth value, bytes, a date, a moment of a
day, or the text itself. A tag accepts more texts than those that would have been told to have it by
their form alone.
-/

namespace NodeFlow.Document

/-! ### Numbers -/

/-- The value of a digit in a base of at most sixteen; letters count only as sixteen's digits. -/
def digitIn? (base : Nat) (c : Char) : Option Nat :=
  let digit := (Text.digitValue? c).or (if base = 16 then Json.hexValue? c else none)
  digit.filter (· < base)

/-- The mark before digits of a base. -/
def baseMark (base : Nat) : Char := if base = 2 then 'b' else if base = 8 then 'o' else 'x'

/-- The integer of a text in a base other than ten, with a sign or not, and with the mark of the
base before its digits or not. -/
def integerIn? (base : Nat) (s : List Char) : Option Int :=
  let (negative, body) := Numeral.unsigned (Text.strip s)
  let digits := match body with
    | '0' :: mark :: rest => if mark.toLower = baseMark base then rest else body
    | body => body
  if digits.isEmpty then none
  else
    (digits.mapM (digitIn? base)).map fun ds =>
      let n : Nat := ds.foldl (fun n d => base * n + d) 0
      if negative then -(n : Int) else n

/-- The sum of the groups of a number in groups of sixty. -/
def sixties (groups : List Int) : Int := groups.foldl (fun n group => 60 * n + group) 0

/-- The integer that a text with its tag is. -/
def integerOf (text : String) : Except Fault Int :=
  let s := text.toList.filter (· != '_')
  let body := match s with
    | '+' :: rest | '-' :: rest => rest
    | s => s
  let sign : Int := if s.head? = some '-' then -1 else 1
  let read (n : Option Int) : Except Fault Int :=
    match n with
    | some n => .ok (sign * n)
    | none => .error .numeral
  match body with
  | [] => .error .emptyNumeral
  | ['0'] => .ok 0
  | '0' :: 'b' :: digits => read (integerIn? 2 digits)
  | '0' :: 'x' :: digits => read (integerIn? 16 digits)
  | '0' :: _ => read (integerIn? 8 body)
  | _ =>
    if body.contains ':' then
      read (((body.splitOn ':').mapM fun group => Numeral.int? (Text.strip group)).map sixties)
    else read (Numeral.int? (Text.strip body))

/-- The double of groups of sixty, summed from the last on. -/
def sixtiesDouble (groups : List Float) : Except Fault Float :=
  let add (sum : Float × Int) (group : Float) : Except Fault (Float × Int) :=
    match Binary.ofInt? sum.2 with
    | some unit => .ok (sum.1 + group * unit, sum.2 * 60)
    | none => .error .largeNumeral
  (groups.reverse.foldlM add (0, 1)).map (·.1)

/-- The double that a text with its tag is. -/
def doubleOf (text : String) : Except Fault Float :=
  let s := Text.lower (text.toList.filter (· != '_'))
  let body := match s with
    | '+' :: rest | '-' :: rest => rest
    | s => s
  let negative := s.head? == some '-'
  let signed (x : Float) : Float := if negative then -x else x
  let double? (s : List Char) : Option Float := Numeral.float? (Text.strip s)
  if s.isEmpty then .error .emptyNumeral
  else if body = ".inf".toList then .ok (Binary.infinity negative)
  else if body = ".nan".toList then .ok Binary.nan
  else
    match (body.splitOn ':').mapM double? with
    | some [x] => .ok (signed x)
    | some groups => (sixtiesDouble groups).map signed
    | none => .error .numeral

/-! ### Dates -/

/-- The seconds of a distance from universal time; there is none of a day or more. -/
def OffsetText.seconds? : OffsetText → Option Int
  | universal => some 0
  | signed negative hours minutes =>
    let size := (Json.digitsValue hours * 60 + Json.digitsValue minutes) * 60
    if size < 24 * 60 * 60 then some (if negative then -(size : Int) else size) else none

/-- The microseconds of a fraction of a second; further digits are dropped. -/
def microseconds (fraction : List Char) : Nat :=
  let digits := fraction.take 6
  Json.digitsValue digits * power 10 (6 - digits.length : Int)

/-- The date or the moment that a text with its tag is. -/
def timestampOf (text : String) : Except Fault Atom :=
  let s := text.toList
  let s := if s.getLast? = some '\n' then s.dropLast else s
  match timestamp? s with
  | none => .error .dateForm
  | some (d, time?) =>
    let date : Date := ⟨Json.digitsValue d.year, Json.digitsValue d.month, Json.digitsValue d.day⟩
    match time? with
    | none => if date.isValid then .ok (.date date) else .error .noSuchDate
    | some t =>
      let time := (Json.digitsValue t.hour, Json.digitsValue t.minute, Json.digitsValue t.second)
      let offset : Option (Option Int) := match t.offset with
        | none => some none
        | some zone => zone.seconds?.map some
      match offset with
      | none => .error .noSuchDate
      | some offset =>
        if date.isValid ∧ time.1 < 24 ∧ time.2.1 < 60 ∧ time.2.2 < 60 then
          .ok (.moment ⟨date, time.1, time.2.1, time.2.2, microseconds t.fraction, offset⟩)
        else .error .noSuchDate

/-! ### All atoms -/

/-- The truth value that a text with its tag is. -/
def truthOf (text : String) : Except Fault Bool :=
  let s := String.ofList (Text.lower text.toList)
  if ["yes", "true", "on"].contains s then .ok true
  else if ["no", "false", "off"].contains s then .ok false
  else .error .truthWord

/-- The bytes that a text with its tag is. It may hold no characters but ASCII ones. -/
def bytesOf (text : String) : Except Fault (List UInt8) :=
  let s := text.toList
  match if s.all (·.toNat < 0x80) then Base64.decode? s else none with
  | some bs => .ok bs
  | none => .error .content

/-- The atom that a text with its tag is. -/
def atomOf (tag : Tag) (text : String) : Except Fault Atom :=
  match tag with
  | .null => .ok .null
  | .bool => (truthOf text).map .bool
  | .int => (integerOf text).map fun n => .num (.int n)
  | .float => (doubleOf text).map fun x => .num (.float x)
  | .str => .ok (.ofText text)
  | .bytes => (bytesOf text).map .bytes
  | .timestamp => timestampOf text
  | _ => .error .content

end NodeFlow.Document
