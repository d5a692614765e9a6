import NodeFlow.Number.Layout
import NodeFlow.Number.Numeral
import NodeFlow.Text.Quoted
import NodeFlow.Text.Slug
import NodeFlow.Value.Basic

/-!
# The text of a value

Three renderings. The plain text of a value is what joining it to other text gives. Its display form
shows texts in quotes; values with parts have only that one. Its literal is an expression of
generated code that evaluates to it, to a list for a pair, and to its text for what code has no
expression for.

An integer may only be written with so many digits. A value in which a longer one stands has none of
the three: `Value.spelled` and `Value.source` give the plain text and the literal of all the others.
-/

namespace NodeFlow

namespace Number

/-- The plain text of a number. -/
def text : Number → String
  | int n => toString n
  | float x => NumberLayout.plain.text x

/-- An expression of generated code for a number. A double without digits is read from its text. -/
def literal (x : Number) : String :=
  match x with
  | int _ => x.text
  | float y => if y.isFinite then x.text else "float(" ++ Text.quote x.text ++ ")"

end Number

namespace Moment

/-- The constructor of a distance from universal time, whole days apart from seconds. -/
def offsetDisplay (offset : Int) : String :=
  if offset = 0 then "datetime.timezone.utc"
  else
    let seconds := "seconds=" ++ toString (offset.emod 86400)
    let span := if offset < 0 then "days=-1, " ++ seconds else seconds
    "datetime.timezone(datetime.timedelta(" ++ span ++ "))"

end Moment

namespace Atom

/-- The plain text of an atom. -/
def text : Atom → String
  | null => "None"
  | bool b => if b then "True" else "False"
  | num x => x.text
  | str s | broken s => s
  | bytes bs => Text.displayedBytes bs
  | date d => d.text
  | moment t => t.textWith " "

theorem text_ofText (s : String) : (ofText s).text = s := by
  rw [ofText]
  split <;> rfl

theorem ofText_inj {s t : String} : ofText s = ofText t ↔ s = t := by
  constructor
  · intro h
    rw [← text_ofText s, h, text_ofText]
  · exact congrArg ofText

/-- An atom as it is shown inside a list or a table. -/
def display : Atom → String
  | str s | broken s => Text.displayed s
  | date d => "datetime.date(" ++ d.fields ++ ")"
  | moment t =>
    "datetime.datetime(" ++ t.fields
      ++ ((t.offset.map fun o => ", tzinfo=" ++ Moment.offsetDisplay o).getD "") ++ ")"
  | a => a.text

/-- An expression of generated code for an atom. -/
def literal : Atom → String
  | null => "None"
  | bool b => if b then "True" else "False"
  | num x => x.literal
  | a => Text.quote a.text

end Atom

/-- Curly brackets around the members of a set or the entries of a record. -/
def inBraces (s : String) : String := "\x7b" ++ s ++ "\x7d"

/-- A set as it is shown inside a list or a table, its members in the order in which they are listed.
That order is the only one that a set of values has here. A running program goes through a set in an
order of its own, which differs from run to run. -/
def displaySet (members : List Atom) : String :=
  if members.isEmpty then "set()" else inBraces (", ".intercalate (members.map Atom.display))

mutual

/-- A value as it is shown inside a list or a table. -/
def Value.display : Value → String
  | .atom a => a.display
  | .list items => "[" ++ ", ".intercalate (Value.displayItems items) ++ "]"
  | .pair v w => "(" ++ v.display ++ ", " ++ w.display ++ ")"
  | .set members => displaySet members
  | .record entries => inBraces (", ".intercalate (Value.displayEntries entries))

/-- The display forms of the items of a list. -/
def Value.displayItems : List Value → List String
  | [] => []
  | v :: rest => v.display :: Value.displayItems rest

/-- The display forms of the entries of a record. -/
def Value.displayEntries : List (Atom × Value) → List String
  | [] => []
  | (k, v) :: rest => (k.display ++ ": " ++ v.display) :: Value.displayEntries rest

end

mutual

/-- An expression of generated code that evaluates to a value. -/
def Value.literal : Value → String
  | .atom a => a.literal
  | .list items => "[" ++ ", ".intercalate (Value.literalItems items) ++ "]"
  | .pair v w => "[" ++ v.literal ++ ", " ++ w.literal ++ "]"
  | .set members => Text.quote (displaySet members)
  | .record entries => inBraces (", ".intercalate (Value.literalEntries entries))

/-- The literals of the items of a list. -/
def Value.literalItems : List Value → List String
  | [] => []
  | v :: rest => v.literal :: Value.literalItems rest

/-- The literals of the entries of a record. -/
def Value.literalEntries : List (Atom × Value) → List String
  | [] => []
  | (k, v) :: rest => (k.literal ++ ": " ++ v.literal) :: Value.literalEntries rest

end

/-! ### Integers that may not be written -/

/-- An integer has more digits than it may be written with. -/
structure TooManyDigits where
deriving DecidableEq, Repr

/-- A text, unless an integer in it has too many digits. -/
abbrev Spelling := Except TooManyDigits String

/-- A text of something in which all integers may be written, or not. It is kept folded where terms
are compared, as the bound on integers is a large number. -/
@[irreducible] def Spelling.ofText (isWritable : Bool) (text : String) : Spelling :=
  if isWritable then .ok text else .error ⟨⟩

/-- Whether a number has no more digits than an integer may be written with. -/
def Number.isWritable : Number → Bool
  | .int n => n.natAbs < power 10 Numeral.digitLimit
  | .float _ => true

/-- Whether an atom has no integer with too many digits. -/
def Atom.isWritable : Atom → Bool
  | .num x => x.isWritable
  | _ => true

mutual

/-- Whether a value has no integer with too many digits. -/
def Value.isWritable : Value → Bool
  | .atom a => a.isWritable
  | .list items => Value.allWritable items
  | .pair v w => v.isWritable && w.isWritable
  | .set members => members.all Atom.isWritable
  | .record entries => Value.entriesWritable entries

/-- Whether no item of a list has an integer with too many digits. -/
def Value.allWritable : List Value → Bool
  | [] => true
  | v :: rest => v.isWritable && Value.allWritable rest

/-- Whether no entry of a record has an integer with too many digits. -/
def Value.entriesWritable : List (Atom × Value) → Bool
  | [] => true
  | (k, v) :: rest => k.isWritable && v.isWritable && Value.entriesWritable rest

end

/-- The literal of a number. -/
def Number.source (x : Number) : Spelling := .ofText x.isWritable x.literal

namespace Value

/-- The plain text of a value, however many digits its integers have. -/
def text : Value → String
  | atom a => a.text
  | v => v.display

/-- The plain text of a value. -/
def spelled (v : Value) : Spelling := .ofText v.isWritable v.text

/-- The literal of a value. -/
def source (v : Value) : Spelling := .ofText v.isWritable v.literal

/-- The text of a value as a literal of generated code. -/
def quoted (v : Value) : Spelling := v.spelled.map Text.quote

/-- The slug of a value's text; a value that counts as false has the empty one. -/
def slug (v : Value) : Spelling := if v.truthy then v.spelled.map Text.slug else .ok ""

end Value

end NodeFlow
