import NodeFlow.Catalog
import NodeFlow.Graph.Basic

/-!
# Where the value of a node comes from

Direct evaluation and generated code read a graph alike: the value of a node comes from the input
record, from the node itself, or from the data edges into it. Of several edges into one handle the
last one counts, and edges into handles that the operator does not declare do not count at all.
-/

namespace NodeFlow

/-- Where the value of a node comes from. -/
inductive Origin where
  /-- The input record, by a path. -/
  | path (path : String)
  /-- The node itself. -/
  | constant (value : Value) (dtype : Dtype)
  /-- An operator, applied to what the edges at its input ports bring. -/
  | operation (op : Operator) (inputs : List (String × Option Edge))
  /-- What an edge brings. -/
  | edge (e : Option Edge)
  /-- Nowhere, as the operator is not in the catalog. -/
  | unknown

/-- Where the value of a node comes from. -/
def Graph.origin (g : Graph) (n : Node) : Origin :=
  match n.content with
  | .field path _ _ => .path path
  | .const value dtype _ => .constant value dtype
  | .operator op _ _ =>
    match Catalog.lookup? op with
    | none => .unknown
    | some o => .operation o (o.inputs.map fun p => (p.id, g.inputEdge? n.id (some p.id)))
  | .output _ _ => .edge (g.valueEdge? n.id)

/-- The edges that bring what a node's value is made of. -/
def Origin.edges : Origin → List Edge
  | operation _ inputs => inputs.filterMap (·.2)
  | edge e => e.toList
  | _ => []

end NodeFlow
