import NodeFlow.Graph.Reader
import NodeFlow.Value.Constant

/-!
# Edits of a graph

An action changes a graph in one respect. Every action can be applied to every graph: what it names
and is not there is left alone. Only an edit of a constant can fail, where the raw input would have
to be written and an integer in it has too many digits.
-/

namespace NodeFlow

/-- One change of a graph. -/
inductive Action where
  | addNode (n : Node)
  /-- Removes all nodes of a name, and the edges at them. -/
  | removeNode (id : String)
  | addEdge (e : Edge)
  | removeEdge (id : String)
  /-- Gives constants of a name a value from raw input, under their own type or another. -/
  | editConst (id : String) (raw : Value) (dtype : Option Dtype)
deriving DecidableEq

namespace Action

/-- A constant after its value was edited; other nodes stay as they are. -/
def edited (raw : Value) (dtype : Option Dtype) (n : Node) : Except TooManyDigits Node :=
  match n.content with
  | .const _ own label => do
    let t := dtype.getD own
    return { n with content := .const (← Constant.coerce t raw) t label }
  | _ => .ok n

/-- The graph after an action. -/
def apply (g : Graph) : Action → Except TooManyDigits Graph
  | addNode n => .ok { g with nodes := g.nodes ++ [n] }
  | removeNode id =>
    .ok { g with
      nodes := g.nodes.filter (·.id != id)
      edges := g.edges.filter fun e => e.source != id && e.target != id }
  | addEdge e => .ok { g with edges := g.edges ++ [e] }
  | removeEdge id => .ok { g with edges := g.edges.filter (·.id != some id) }
  | editConst id raw dtype => do
    let nodes ← g.nodes.mapM fun n => if n.id == id then edited raw dtype n else .ok n
    return { g with nodes }

/-! ### Reading actions -/

open Schema

/-- Reads the parts of an edit of constants. -/
def readEditConst (entries : List (Atom × Value)) : Checked Action :=
  (required ["node_id"] text entries
    |>.both (optional ["raw"] .null any entries)
    |>.both (optional ["dtype"] none dtype? entries)).map
    fun ((id, raw), dtype) => .editConst id raw dtype

/-- The reader for the parts of an action of a kind, if there is such a kind. -/
def reader? (kind : String) : Option (List (Atom × Value) → Checked Action) :=
  match kind with
  | "add_node" => some fun entries => (required ["node"] Graph.readNode entries).map addNode
  | "remove_node" => some fun entries => (required ["node_id"] text entries).map removeNode
  | "add_edge" => some fun entries => (required ["edge"] Graph.readEdge entries).map addEdge
  | "remove_edge" => some fun entries => (required ["edge_id"] text entries).map removeEdge
  | "edit_const" => some readEditConst
  | _ => none

/-- Reads an action, whose kind is among its parts; none when there is no such kind. -/
def read? (v : Value) : Option (Checked Action) :=
  match v with
  | .record entries =>
    match Record.get? entries (.str "kind") with
    | some (.str kind) => (reader? kind).map fun read => read entries
    | _ => none
  | _ => none

end Action

end NodeFlow
