import NodeFlow.Operator.Aggregate
import NodeFlow.Operator.Arrange
import NodeFlow.Operator.Control
import NodeFlow.Operator.Scalar
import NodeFlow.Operator.Variable

/-!
# The catalog of operators

The operators that graphs may use, in the order in which they are listed, each under a name of its
own.
-/

namespace NodeFlow

/-- Why the catalog refuses a request. -/
inductive CatalogError where
  | unknown (id : Option String)
  | taken (id : String)
deriving DecidableEq, Repr

/-- The wording of a refusal. -/
def CatalogError.message : CatalogError → String
  | unknown id => "Unknown operator '" ++ id.getD "None" ++ "'"
  | taken id => "Operator '" ++ id ++ "' is already registered"

namespace Catalog

open Operator in
/-- All operators. -/
def operators : List Operator := [
  add, subtract, multiply, divide, concat,
  equality, inequality, above, below, atLeast, atMost,
  conjunction, disjunction, negation, exclusiveOr, coalesce,
  choice, loop, breakSignal, continueSignal,
  range, sum, addToEach, multiplyEach, length, slice, reverse, sortAscending, sortDescending,
  unique, product, average, minimum, maximum, zip, enumerate, flatten, filterEqual, take, drop,
  chunk, repetition,
  setVariable, getVariable, addToVariable]

/-- The operator of a name. -/
def lookup? (id : String) : Option Operator := operators.find? (·.id == id)

/-- The operator of a name, which must be one. -/
def get (id : Option String) : Except CatalogError Operator :=
  match id.bind lookup? with
  | some op => .ok op
  | none => .error (.unknown id)

/-- The catalog with one more operator, whose name must be free. -/
def register (catalog : List Operator) (op : Operator) : Except CatalogError (List Operator) :=
  if catalog.any (·.id == op.id) then .error (.taken op.id) else .ok (catalog ++ [op])

end Catalog

end NodeFlow
