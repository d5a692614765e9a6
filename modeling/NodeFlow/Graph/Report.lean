import NodeFlow.Graph.Connection
import NodeFlow.Graph.Order

/-!
# The report on a graph

What there is to say about a graph: one finding for each fault and each doubt, and one for each
group of checks that found none. Faults make the graph unfit; doubts do not, as evaluation and
generated code have a meaning for them too.
-/

namespace NodeFlow

/-- Something to say about a graph. -/
inductive Finding where
  | idsUnique
  | idsRepeated
  | edgesFine
  | edgeDangling (e : Edge)
  | edgeIntoSource (e : Edge) (kind : NodeKind)
  | operatorsFine
  | operatorUnknown (node op : String)
  | inputUnknown (e : Edge)
  | inputShared (e : Edge)
  | typesClash (e : Edge) (source target : Dtype)
  | loopIdle (node : String)
  | acyclic
  | cyclic
deriving DecidableEq, Repr

/-- How serious a finding is. -/
inductive Severity where
  | fine
  | doubt
  | fault
deriving DecidableEq, Repr

namespace Finding

/-- How serious a finding is. -/
def severity : Finding → Severity
  | idsUnique | edgesFine | operatorsFine | acyclic => .fine
  | idsRepeated | edgeDangling _ | edgeIntoSource .. => .fault
  | operatorUnknown .. | inputUnknown _ | inputShared _ | typesClash .. | loopIdle _ | cyclic =>
    .doubt

/-- An edge in a message. -/
def edgeText (e : Edge) : String := e.source ++ "->" ++ e.target

/-- The place in which an edge ends, in a message. -/
def inputText (e : Edge) : String := e.target ++ "." ++ e.targetHandle.getD "None"

/-- What a finding says. -/
def text : Finding → String
  | idsUnique => "Node IDs are unique."
  | idsRepeated => "Duplicate node IDs detected."
  | edgesFine => "All edges reference existing nodes."
  | edgeDangling e => "Edge " ++ edgeText e ++ " references missing node(s)."
  | edgeIntoSource e kind => "Edge " ++ edgeText e ++ " targets a " ++ kind.name ++ " node."
  | operatorsFine => "Operators, ports and dtypes line up."
  | operatorUnknown node op =>
    "Node " ++ node ++ " uses unknown operator '" ++ op ++ "' (evaluates to None)."
  | inputUnknown e => "Edge to " ++ inputText e ++ " is not an input on that node."
  | inputShared e => "Several edges into " ++ inputText e ++ "; the last one wins."
  | typesClash e source target =>
    "Edge " ++ edgeText e ++ " carries " ++ source.name ++ " into a " ++ target.name ++ " port."
  | loopIdle node =>
    "Port 'cond' on node '" ++ node ++ "' has no incoming edge; the loop never runs."
  | acyclic => "Graph is acyclic."
  | cyclic => "Cycle detected in the graph (nodes on it evaluate to None)."

/-- The word for a severity at the head of a message. -/
def severityWord : Severity → String
  | .fine => "OK"
  | .doubt => "WARN"
  | .fault => "ERR"

/-- The message of a finding. -/
def message (f : Finding) : String := severityWord f.severity ++ ": " ++ f.text

end Finding

namespace Graph

variable (g : Graph)

/-- The finding that there is nothing to say, unless there is. -/
def orFine (fine : Finding) (findings : List Finding) : List Finding :=
  if findings.isEmpty then [fine] else findings

/-- Whether no two nodes have one name. -/
def hasDistinctIds : Bool := g.distinctIds.length == g.nodes.length

/-- The finding about the names of the nodes. -/
def idFinding : Finding := if g.hasDistinctIds then .idsUnique else .idsRepeated

/-- The fault of an edge, if it has one. -/
def edgeFault (e : Edge) : Option Finding :=
  match g.node? e.source, g.node? e.target with
  | some _, some target => if target.takesInput then none else some (.edgeIntoSource e target.kind)
  | _, _ => some (.edgeDangling e)

/-- The doubts about operators that are not in the catalog. -/
def operatorDoubts : List Finding :=
  g.nodes.filterMap fun n =>
    match n.operator? with
    | some op => if (Catalog.lookup? op).isNone then some (.operatorUnknown n.id op) else none
    | none => none

/-- The doubts about the input at which an edge ends, given the inputs of operators that edges
before it end at. -/
def inputDoubts (before : List (String × Option String)) (target : Node) (e : Edge) :
    List Finding :=
  match target.operator? with
  | none => []
  | some op =>
    let unknown := (Catalog.lookup? op).any fun o => (o.inputPort? e.targetHandle).isNone
    (if unknown then [.inputUnknown e] else [])
      ++ if before.contains (e.target, e.targetHandle) then [.inputShared e] else []

/-- The doubt about the types that an edge connects. -/
def typeDoubt (source target : Node) (e : Edge) : List Finding :=
  let given := source.outputDtype e.sourceHandle
  let taken := target.inputDtype e.targetHandle
  if given.compatible taken then [] else [.typesClash e given taken]

/-- The doubts about edges that carry data into nodes that take it, given the inputs of operators
that edges before them end at. -/
def edgeDoubts (before : List (String × Option String)) : List Edge → List Finding
  | [] => []
  | e :: rest =>
    match g.node? e.source, g.node? e.target with
    | some source, some target =>
      if !target.takesInput || g.isScopeEdge e then edgeDoubts before rest
      else
        let seen :=
          if target.kind == .operator then (e.target, e.targetHandle) :: before else before
        inputDoubts before target e ++ typeDoubt source target e ++ edgeDoubts seen rest
    | _, _ => edgeDoubts before rest

/-- The doubts about loops without a condition. -/
def loopDoubts : List Finding :=
  g.nodes.filterMap fun n =>
    if g.isLoop n.id && (g.inputEdge? n.id (some "cond")).isNone then some (.loopIdle n.id)
    else none

/-- The finding about cycles. All edges count, those of loops included. -/
def cycleFinding : Finding := if g.digraph.hasCycle then .cyclic else .acyclic

/-- Everything there is to say about a graph. -/
def report : List Finding :=
  [g.idFinding]
    ++ orFine .edgesFine (g.edges.filterMap g.edgeFault)
    ++ orFine .operatorsFine (g.operatorDoubts ++ g.edgeDoubts [] g.edges ++ g.loopDoubts)
    ++ [g.cycleFinding]

/-- Whether a graph has no fault: its nodes have names of their own, and every edge leads from a node
to one that takes inputs. -/
def isSound : Bool := g.hasDistinctIds && g.edges.all fun e => (g.edgeFault e).isNone

end Graph

end NodeFlow
