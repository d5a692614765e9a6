import NodeFlow.Catalog
import NodeFlow.Graph.Basic

/-!
# Connections

Which data types meet where an edge is drawn. Every output of a graph, every operator outside the
catalog and every handle that an operator does not have takes and gives values of any type.
-/

namespace NodeFlow

namespace Node

/-- The data type that a node gives at a handle. -/
def outputDtype (n : Node) (handle : Option String) : Dtype :=
  match n.content with
  | .field _ dtype _ | .const _ dtype _ => dtype
  | .operator op _ _ =>
    (((Catalog.lookup? op).bind (·.outputPort? handle)).map (·.dtype)).getD .any
  | .output .. => .any

/-- The data type that a node takes at a handle. -/
def inputDtype (n : Node) (handle : Option String) : Dtype :=
  match n.content with
  | .operator op _ _ =>
    (((Catalog.lookup? op).bind (·.inputPort? handle)).map (·.dtype)).getD .any
  | _ => .any

end Node

/-- Whether an edge may be drawn: between two nodes that are there and differ, into one that takes
input, and between types that go together. Cycles are not looked for. -/
def Graph.mayConnect (g : Graph) (e : Edge) : Bool :=
  match g.node? e.source, g.node? e.target with
  | some source, some target =>
    source.id != target.id && target.takesInput
      && (source.outputDtype e.sourceHandle).compatible (target.inputDtype e.targetHandle)
  | _, _ => false

end NodeFlow
