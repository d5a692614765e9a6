import NodeFlow.Operator.Control
import NodeFlow.Value.Dtype

/-!
# Graphs

A graph has nodes and edges. A node reads a field of the input record, holds a constant, applies an
operator, or is an output. Names of nodes need not be unique, and an edge may name nodes that are
not there: where a name is looked up, the last node that has it counts.

An edge from the scope handle of a loop carries no data; it marks its target as governed by the
loop. All other edges carry data.
-/

namespace NodeFlow

/-- What a node does. -/
inductive Content where
  /-- Reads a field of the input record. -/
  | field (path : String) (dtype : Dtype) (label : Option String)
  /-- Holds a constant. -/
  | const (value : Value) (dtype : Dtype) (label : Option String)
  /-- Applies an operator of the catalog; a loop may evaluate inputs of its own on each pass. -/
  | operator (op : String) (label : Option String) (passInputs : List String)
  /-- Gives a result. -/
  | output (label : String) (result : Value)
deriving DecidableEq

/-- A node of a graph. -/
structure Node where
  id : String
  position : Option (List (String × Float))
  content : Content
deriving DecidableEq

/-- An edge of a graph. A missing handle stands for the only or the default one. -/
structure Edge where
  id : Option String
  source : String
  sourceHandle : Option String
  target : String
  targetHandle : Option String
deriving DecidableEq, Repr

/-- A graph, with whatever else is noted about it. -/
structure Graph where
  nodes : List Node
  edges : List Edge
  metadata : List (String × Value)
deriving DecidableEq

/-- The kinds of nodes. -/
inductive NodeKind where
  | field
  | const
  | operator
  | output
deriving DecidableEq, Repr

/-- The name of a kind of nodes. -/
def NodeKind.name : NodeKind → String
  | field => "field"
  | const => "const"
  | operator => "operator"
  | output => "output"

/-- The kind of a node. -/
def Node.kind (n : Node) : NodeKind :=
  match n.content with
  | .field .. => .field
  | .const .. => .const
  | .operator .. => .operator
  | .output .. => .output

/-- The name of the operator that a node applies. -/
def Node.operator? (n : Node) : Option String :=
  match n.content with
  | .operator op _ _ => some op
  | _ => none

/-- Whether a node takes values from edges: fields and constants do not. -/
def Node.takesInput (n : Node) : Bool :=
  match n.content with
  | .field .. | .const .. => false
  | .operator .. | .output .. => true

/-- Whether a node is a loop. -/
def Node.isLoop (n : Node) : Bool := n.operator? == some Operator.loopId

/-- The label of an output that has none of its own. -/
def defaultOutputLabel : String := "Result"

/-- The graph without nodes. -/
def Graph.empty : Graph := ⟨[], [], []⟩

namespace Graph

variable (g : Graph)

/-! ### Nodes -/

/-- The names of the nodes, in order. -/
def ids : List String := g.nodes.map (·.id)

/-- The node of a name: the last one, where several have it. -/
def node? (id : String) : Option Node := g.nodes.reverse.find? (·.id == id)

/-- Whether a node has a name. -/
def has (id : String) : Bool := g.nodes.any (·.id == id)

/-- The place of a name among the nodes: that of the first node that has it. -/
def place (id : String) : Nat := g.nodes.findIdx (·.id == id)

/-- Whether a name is that of a loop. -/
def isLoop (id : String) : Bool := (g.node? id).any Node.isLoop

/-- The names of the nodes without repetition, in order. -/
def distinctIds : List String := g.ids.eraseDups

/-! ### Edges -/

/-- Whether an edge marks its target as governed by a loop. -/
def isScopeEdge (e : Edge) : Bool :=
  e.sourceHandle == some Operator.scopeHandle && g.isLoop e.source

/-- The edges that carry data into a node. -/
def dataIn (id : String) : List Edge := g.edges.filter fun e => e.target == id && !g.isScopeEdge e

/-- The edges that carry data out of a node. -/
def dataOut (id : String) : List Edge := g.edges.filter fun e => e.source == id && !g.isScopeEdge e

/-- All edges out of a node. -/
def edgesFrom (id : String) : List Edge := g.edges.filter (·.source == id)

/-- The edge that feeds a handle of a node: of several the last. -/
def inputEdge? (id : String) (handle : Option String) : Option Edge :=
  ((g.dataIn id).filter (·.targetHandle == handle)).getLast?

/-- The edge that feeds a node that has but one input: of several the last. -/
def valueEdge? (id : String) : Option Edge := (g.dataIn id).getLast?

end Graph

end NodeFlow
