import NodeFlow.Json
import NodeFlow.Text.Lower
import NodeFlow.Value.Dtype
import NodeFlow.Value.Text

/-!
# Constants

A constant has a value and a declared type. What is typed into an editor is turned into a value of
the declared type, and the value is written into generated code by that type. Both fail where they
come to write an integer of too many digits.
-/

namespace NodeFlow

/-- Why a text is no list literal: what was given instead. -/
structure MalformedList where
  given : Value
deriving DecidableEq

/-- The wording of the complaint. -/
def MalformedList.message (e : MalformedList) : Spelling :=
  .ofText e.given.isWritable ("Not a JSON list: " ++ e.given.display)

namespace Constant

/-- Reads a list literal, or says that there is none. -/
def readList (given : Value) : Except MalformedList (List Value) :=
  match given with
  | .str s | .atom (.broken s) =>
    match Json.read? s with
    | some (.list items) => .ok items
    | _ => .error ⟨given⟩
  | _ => .error ⟨given⟩

/-- The items of a list literal, none for any other text. -/
def listItems (given : Value) : List Value := (readList given).toOption.getD []

/-- The truth value that a value is taken for: of a text, whether it says `true`, blanks and case
aside. -/
def asBool : Value → Bool
  | .str s => String.ofList (Text.lower (Text.strip s.toList)) == "true"
  | .atom (.broken _) => false
  | v => v.truthy

/-- The text typed for a value: none for nothing. -/
def typedText : Value → Spelling
  | .null => .ok ""
  | v => v.spelled

/-- The value that raw editor input becomes under a declared type. -/
def coerce (dtype : Dtype) (raw : Value) : Except TooManyDigits Value :=
  match dtype with
  | .number =>
    match raw with
    | .num _ => .ok raw
    | _ => (typedText raw).map fun text => .num (Numeral.read text)
  | .boolean => .ok (.bool (asBool raw))
  | .list =>
    match raw with
    | .list _ => .ok raw
    | _ => (typedText raw).map fun text => .list (listItems (.str text))
  | .string | .date =>
    match raw with
    | .atom (.broken _) => .ok raw
    | _ => (typedText raw).map .str
  | .any => .ok raw

/-- The expression of generated code for a value under a declared type. -/
def source (dtype : Dtype) (value : Value) : Spelling :=
  match value with
  | .null => .ok "None"
  | _ =>
    match dtype with
    | .number =>
      match value with
      | .num x => x.source
      | _ => value.quoted
    | .boolean => .ok (if asBool value then "True" else "False")
    | .list =>
      match value with
      | .str _ | .atom (.broken _) => (Value.list (listItems value)).source
      | _ => (Value.list (value.items?.getD [])).source
    | .any => value.source
    | .string | .date => value.quoted

/-- As `coerce`, for a type given by name. Under a name that is no type the input stays as it is. -/
def coerceNamed (name : String) (raw : Value) : Except TooManyDigits Value :=
  match Dtype.ofName? name with
  | some dtype => coerce dtype raw
  | none => .ok raw

/-- As `source`, for a type given by name. Under a name that is no type the value is quoted. -/
def sourceNamed (name : String) (value : Value) : Spelling :=
  source ((Dtype.ofName? name).getD .string) value

end Constant

end NodeFlow
