import NodeFlow.Text.Digit
import NodeFlow.Value.Basic

/-!
# Data types

The types that ports, fields and constants declare, and the type that a value suggests.
-/

namespace NodeFlow

/-- The types a port, a field or a constant may declare. -/
inductive Dtype where
  | number
  | string
  | boolean
  | date
  | list
  | any
deriving DecidableEq, Repr, Inhabited

namespace Dtype

/-- The name of a type. -/
def name : Dtype → String
  | number => "number"
  | string => "string"
  | boolean => "boolean"
  | date => "date"
  | list => "list"
  | any => "any"

/-- All types. -/
def all : List Dtype := [number, string, boolean, date, list, any]

/-- The type of a name. -/
def ofName? (s : String) : Option Dtype := all.find? (·.name == s)

theorem ofName?_name (t : Dtype) : ofName? t.name = some t := by cases t <;> decide

/-- Whether values of one type may be fed into a port of another. -/
def compatible (source target : Dtype) : Bool :=
  source == any || target == any || source == target

/-- Whether a text is a date as far as its shape goes: four, two and two digits between hyphens,
and perhaps a line end after them. -/
def isDateText (s : List Char) : Bool :=
  let body := if s.length == 11 && s.getLast? == some '\n' then s.dropLast else s
  body.length == 10 && body.zipIdx.all fun (c, i) =>
    if i == 4 || i == 7 then c == '-' else Text.isDigit c

/-- The type that a value suggests. -/
def infer : Value → Dtype
  | .bool _ => boolean
  | .num _ => number
  | .str s => if isDateText s.toList then date else string
  | .atom (.broken _) => string
  | .list _ => list
  | _ => any

end Dtype

end NodeFlow
