import NodeFlow.Number.Numeral
import NodeFlow.Value.Dtype
import NodeFlow.Value.Equality

/-!
# Operators

An operator takes values at its input ports and gives one at an output port. It can do so directly,
from values, or as code, by filling the expressions of its inputs into a template.
-/

namespace NodeFlow

/-- A place on an operator where a value enters or leaves. -/
structure Port where
  id : String
  dtype : Dtype
  label : Option String
deriving DecidableEq, Repr

/-- Why an operator has no value for its arguments. -/
inductive EvalFault where
  /-- An integer too large for a double met a double. -/
  | tooLarge
  /-- An argument is of a kind that the operation does not know. -/
  | wrongKind
  /-- The text of an integer would have too many digits. -/
  | tooManyDigits
deriving DecidableEq, Repr

/-! ### Code templates -/

/-- A piece of a code template: fixed text, or the place of an input's expression. -/
inductive Piece where
  | text (s : String)
  | hole (port : String)
deriving DecidableEq, Repr

instance : Coe String Piece := ⟨Piece.text⟩

/-- The code of an operator with holes for its inputs: one expression, or fixed expressions for
named outputs. -/
inductive Template where
  | expression (pieces : List Piece)
  | byHandle (expressions : List (String × String))
deriving DecidableEq, Repr

/-- The code of an operator whose inputs are filled in. -/
inductive Snippet where
  | expression (text : String)
  | byHandle (expressions : List (String × String))
deriving DecidableEq, Repr

/-- The expression at an output, or the first one when no output is named. An output that is not
there has the expression for nothing. -/
def Snippet.select (code : Snippet) (handle : Option String) : String :=
  match code with
  | expression text => text
  | byHandle expressions =>
    match handle with
    | none => (expressions.head?.map (·.2)).getD "None"
    | some h => (expressions.lookup h).getD "None"

namespace Template

/-- The text of a piece; `none` when it is a hole for which there is no expression. -/
def fillPiece? (args : String → Option String) : Piece → Option String
  | .text s => some s
  | .hole port => args port

/-- The template with the expressions of the inputs filled in; `none` when one is missing. -/
def fill? (args : String → Option String) : Template → Option Snippet
  | expression pieces => (pieces.mapM (fillPiece? args)).map fun texts => .expression (.join texts)
  | byHandle expressions => some (.byHandle expressions)

/-- Whether the outputs have expressions of their own. -/
def isByHandle : Template → Bool
  | expression _ => false
  | byHandle _ => true

end Template

/-! ### Operators -/

/-- The arguments of an operator: the value at each port, nothing where no value comes in. -/
abbrev Args := String → Value

/-- An operator of the catalog. -/
structure Operator where
  id : String
  label : String
  help : String
  inputs : List Port
  output : Port
  eval : Args → Except EvalFault Value
  template : Template

namespace Operator

/-- The output ports. -/
def outputs (op : Operator) : List Port := [op.output]

/-- The input port of a name; an unnamed port is none of them. -/
def inputPort? (op : Operator) (id : Option String) : Option Port :=
  op.inputs.find? fun p => some p.id == id

/-- The output port of a name, or the default one when no name is given. -/
def outputPort? (op : Operator) (id : Option String) : Option Port :=
  match id with
  | none => some op.output
  | some h => op.outputs.find? (·.id == h)

end Operator

/-! ### What values count as -/

namespace Value

/-- The number that a value counts as where a number is asked for: none for nothing, 0 and 1 for
truth values, what a text says, and no number for the rest. -/
def asNumber? : Value → Option Number
  | null => none
  | bool b => some (.int (if b then 1 else 0))
  | num x => some x
  | str s => some (Numeral.read s)
  | _ => some .nan

/-- The number that a value counts as, nothing counting as the given number. -/
def numberOr (default : Int) (v : Value) : Number := v.asNumber?.getD (.int default)

/-- The number that a value counts as, nothing counting as zero. -/
def asNumber (v : Value) : Number := v.numberOr 0

/-- The items of a list or a pair; other values have none. -/
def items (v : Value) : List Value := v.items?.getD []

end Value

/-- The result of an arithmetic operation on numbers that may be too large for it. -/
def Number.orTooLarge (x : Option Number) : Except EvalFault Number :=
  match x with
  | some y => .ok y
  | none => .error .tooLarge

end NodeFlow
