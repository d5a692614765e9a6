import NodeFlow.Operator.Basic

/-!
# Operators on variables

They matter in generated code, where a variable lives as long as one computation. Direct evaluation
keeps no variables: a write gives the written value and a read gives nothing.
-/

namespace NodeFlow.Operator

/-- The port for the name of a variable. -/
def namePort : Port := ⟨"name", .string, some "Name"⟩

/-- The port for the value of a variable. -/
def valuePort : Port := ⟨"value", .any, some "Value"⟩

/-- A write to a variable. -/
def setVariable : Operator where
  id := "set_assign"
  label := "x = value"
  help := "Assign a variable: x = value. Returns the assigned value so it can be chained."
  inputs := [namePort, valuePort]
  output := ⟨"out", .any, some "out"⟩
  eval := fun args => .ok (args "value")
  template := .expression ["_set(vars, ", .hole "name", ", (", .hole "value", "))"]

/-- A read from a variable. -/
def getVariable : Operator where
  id := "get_var"
  label := "get x"
  help := "Read a variable set by 'x = value' or 'x += value'."
  inputs := [namePort]
  output := ⟨"out", .any, some "value"⟩
  eval := fun _ => .ok .null
  template := .expression ["_get(vars, ", .hole "name", ", None)"]

/-- A value added to zero, which only numbers, truth values and nothing can be. -/
def addedToZero (v : Value) : Except EvalFault Value :=
  match v with
  | .null => .ok (.int 0)
  | .bool _ | .num _ => (Number.orTooLarge (Number.add? (.int 0) v.asNumber)).map .num
  | _ => .error .wrongKind

/-- An addition to a variable. -/
def addToVariable : Operator where
  id := "add_assign"
  label := "x += value"
  help := "Add to a variable: x += value. Returns the updated value."
  inputs := [namePort, valuePort]
  output := ⟨"out", .any, some "out"⟩
  eval := fun args => addedToZero (args "value")
  template := .expression
    ["_set(vars, ", .hole "name", ", (_get(vars, ", .hole "name", ", 0) + (", .hole "value", ")))"]

end NodeFlow.Operator
