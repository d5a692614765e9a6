import NodeFlow.Code.Layout
import NodeFlow.Graph.Connection
import NodeFlow.Preview.Evaluate
import NodeFlow.Session.Action
import NodeFlow.Session.Ids
import NodeFlow.Settings

/-!
# Editing sessions

A graph that is being edited, with the values and the code of its present state on demand. An edit
that is refused leaves the graph as it was; a name that was drawn for it is not used again.
-/

namespace NodeFlow

/-- A graph being edited. -/
structure Session where
  graph : Graph
  settings : Settings
  ids : IdSource

/-- A session that starts with a graph. -/
def Session.start (g : Graph) (settings : Settings) : Session := ⟨g, settings, .initial⟩

/-- Why a step of a session is refused. -/
inductive SessionError where
  /-- What was given for a node, an edge or an action has issues. -/
  | issues (issues : List Issue)
  /-- An edge may not be drawn between two places, of the given data types where these are known. -/
  | mismatch (source target : String) (given taken : Option Dtype)
  /-- A step was given too few or too many arguments, or one of a kind that it cannot use. -/
  | arguments
  /-- There is no such step. -/
  | unknownStep
  /-- Evaluation met an integer that is too large. -/
  | evaluation (fault : EvalFault)
  /-- An integer has too many digits for the text it should be part of. -/
  | unwritable
deriving DecidableEq, Repr

/-- A data type in a message. -/
def SessionError.dtypeText (t : Option Dtype) : String := (t.map Dtype.name).getD "?"

/-- The wording of a refused connection; other refusals have none. -/
def SessionError.message? : SessionError → Option String
  | mismatch source target given taken =>
    some ("Cannot connect " ++ source ++ " (" ++ dtypeText given ++ ") to " ++ target ++ " ("
      ++ dtypeText taken ++ ")")
  | _ => none

/-- A step of a session, which changes it and may be refused. -/
abbrev Edit (α : Type) := ExceptT SessionError (StateM Session) α

namespace Session

/-- The result of reading what was given. -/
def checked {α : Type} (x : Checked α) : Edit α :=
  match x with
  | .ok a => return a
  | .error issues => throw (.issues issues)

/-- What is given unless an integer has too many digits. -/
def written {α : Type} (x : Except TooManyDigits α) : Edit α :=
  match x with
  | .ok a => return a
  | .error _ => throw .unwritable

/-- Applies an action and gives the graph after it. -/
def dispatch (a : Action) : Edit Graph := do
  let graph ← written (a.apply (← get).graph)
  modify ({ · with graph })
  return graph

/-! ### New nodes -/

/-- Draws a name for a node of a kind. -/
def drawId (kind : String) : Edit String := do
  let s ← get
  let (id, ids) := (IdSource.draw kind).run s.ids
  set { s with ids }
  return id

/-- Adds a node that is given by its kind and what it holds, and gives its name. -/
def add (kind : String) (content : Edit Content) : Edit String := do
  let id ← drawId kind
  let _ ← dispatch (.addNode ⟨id, none, ← content⟩)
  return id

/-- Adds a field. -/
def addField (path dtype label : Value) : Edit String :=
  add "field" (checked (Graph.readField [(.str "path", path), (.str "dtype", dtype),
    (.str "label", label)]))

/-- Adds a constant. Without a type it gets the one that its value suggests. -/
def addConst (value dtype label : Value) : Edit String :=
  let t := if dtype.truthy then dtype else .str (Dtype.infer value).name
  add "const" (checked (Graph.readConst [(.str "value", value), (.str "dtype", t),
    (.str "label", label)]))

/-- The parts of a value that can be gone through one by one; values that count as false have
none. -/
def parts? (v : Value) : Option (List Value) :=
  if !v.truthy then some []
  else
    match v with
    | .list items => some items
    | .pair v w => some [v, w]
    | .set members => some (members.map .atom)
    | .record entries => some (entries.map fun (k, _) => .atom k)
    | .str s | .atom (.broken s) => some (s.toList.map fun c => .atom (.ofText c.toString))
    | .atom (.bytes bs) => some (bs.map fun b => .int b.toNat)
    | _ => none

/-- Adds an operator. -/
def addOperator (op label inputs : Value) : Edit String :=
  add "op" do
    let some inputs := parts? inputs | throw .arguments
    checked (Graph.readOperator [(.str "op_id", op), (.str "label", label),
      (.str "exprs", .list inputs)])

/-- Adds an output. -/
def addOutput (label : Value) : Edit String :=
  add "output" (checked (Graph.readOutput [(.str "label", label)]))

/-! ### Edges and changes -/

/-- A node and a handle of it in a message, under a default name for no handle. -/
def placeText (node : String) (handle : Option String) (default : String) : String :=
  node ++ "." ++ Text.orElse (handle.getD "") default

/-- The text of a handle in the name of an edge, under a default name for no handle. -/
def handleText (handle : Value) (default : String) : Spelling :=
  if handle.truthy then handle.spelled else .ok default

/-- The name of a new edge: the texts of its ends and handles. -/
def edgeName (source target targetHandle sourceHandle : Value) : Spelling := do
  return (← source.spelled) ++ ":" ++ (← handleText sourceHandle "out") ++ "->"
    ++ (← target.spelled) ++ ":" ++ (← handleText targetHandle "in")

/-- The refusal to draw an edge. -/
def refusal (g : Graph) (e : Edge) : SessionError :=
  .mismatch (placeText e.source e.sourceHandle "out") (placeText e.target e.targetHandle "in")
    ((g.node? e.source).map (·.outputDtype e.sourceHandle))
    (((g.node? e.target).filter Node.takesInput).map (·.inputDtype e.targetHandle))

/-- Draws an edge, unless it may not be drawn, and gives it. -/
def connect (source target targetHandle sourceHandle : Value) : Edit Edge := do
  let name := Atom.ofText (← written (edgeName source target targetHandle sourceHandle))
  let e ← checked (Graph.readEdgeParts [(.str "id", .atom name), (.str "source", source),
    (.str "source_handle", sourceHandle), (.str "target", target),
    (.str "target_handle", targetHandle)])
  let g := (← get).graph
  if g.mayConnect e then
    let _ ← dispatch (.addEdge e)
    return e
  else throw (refusal g e)

/-- Applies the action of a kind with the given parts. -/
def dispatchOf (kind : String) (entries : List (Atom × Value)) : Edit Graph := do
  match Action.reader? kind with
  | none => throw .arguments
  | some read => dispatch (← checked (read entries))

/-- Removes the edges of a name. -/
def disconnect (edge : Value) : Edit Graph := dispatchOf "remove_edge" [(.str "edge_id", edge)]

/-- Gives constants of a name a value from raw input. -/
def editConst (node raw dtype : Value) : Edit Graph :=
  dispatchOf "edit_const" [(.str "node_id", node), (.str "raw", raw), (.str "dtype", dtype)]

/-- Removes the nodes of a name and the edges at them. -/
def removeNode (node : Value) : Edit Graph := dispatchOf "remove_node" [(.str "node_id", node)]

/-! ### Views -/

/-- The values of all nodes for a record. -/
def values (s : Session) (record : Value) : Except SessionError (List (String × Value)) :=
  (Preview.evaluate s.graph record s.settings.defaultMaxPasses).mapError .evaluation

/-- An output with a result; other nodes are none. -/
def withResult? (values : List (String × Value)) (n : Node) : Option Node :=
  match n.content with
  | .output label _ => some { n with content := .output label ((values.lookup n.id).getD .null) }
  | _ => none

/-- The outputs with their results for a record, the sample record if none is given. -/
def preview (s : Session) (record : Value) : Except SessionError (List Node) := do
  let values ← s.values (if record == .null then s.settings.sample else record)
  return s.graph.nodes.filterMap (withResult? values)

/-- The generated code. -/
def code (s : Session) : String := Code.generate s.graph s.settings.defaultMaxPasses

end Session

end NodeFlow
