import NodeFlow.Graph.Basic
import NodeFlow.Schema.Reader

/-!
# Reading graphs

A graph as a document: a record with the parts `nodes`, `edges` and `metadata`, each of which may be
missing. The kind of a node is its `type`, on which it depends what its `data` holds. Names of two
words may be written either way.
-/

namespace NodeFlow.Graph

open Schema

/-- Reads what a field node holds. -/
def readField (entries : List (Atom × Value)) : Checked Content :=
  (required ["path"] text entries
    |>.both (optional ["dtype"] .any dtype entries)
    |>.both (optional ["label"] none text? entries)).map
    fun ((path, dtype), label) => .field path dtype label

/-- Reads what a constant holds. -/
def readConst (entries : List (Atom × Value)) : Checked Content :=
  (optional ["value"] .null any entries
    |>.both (optional ["dtype"] .string dtype entries)
    |>.both (optional ["label"] none text? entries)).map
    fun ((value, dtype), label) => .const value dtype label

/-- The names under which the operator of a node may stand. -/
def operatorNames : List String := ["opId", "op_id"]

/-- Reads what an operator node holds. -/
def readOperator (entries : List (Atom × Value)) : Checked Content :=
  (required operatorNames text entries
    |>.both (optional ["label"] none text? entries)
    |>.both (optional ["exprs"] [] (list text) entries)).map
    fun ((op, label), inputs) => .operator op label inputs

/-- Reads what an output holds. -/
def readOutput (entries : List (Atom × Value)) : Checked Content :=
  (optional ["label"] defaultOutputLabel text entries
    |>.both (optional ["result"] .null any entries)).map
    fun (label, result) => .output label result

/-- Reads what a node of a kind holds. Only an output may come without it. -/
def readContent (kind : NodeKind) (entries : List (Atom × Value)) : Checked Content :=
  match kind with
  | .field => required ["data"] (model readField) entries
  | .const => required ["data"] (model readConst) entries
  | .operator => required ["data"] (model readOperator) entries
  | .output => optional ["data"] (.output defaultOutputLabel .null) (model readOutput) entries

/-- Reads a position or nothing. -/
def readPosition : Value → Checked (Option (List (String × Float)))
  | .null => .ok none
  | v => (record double v).map some

/-- Reads a node of a kind. -/
def readNodeOf (kind : NodeKind) (entries : List (Atom × Value)) : Checked Node :=
  (required ["id"] text entries
    |>.both (optional ["position"] none readPosition entries)
    |>.both (readContent kind entries)).map
    fun ((id, position), content) => ⟨id, position, content⟩

/-- The kind of nodes of a name. -/
def kindOfName? (name : Value) : Option NodeKind :=
  [NodeKind.field, .const, .operator, .output].find? fun kind => .str kind.name == name

/-- Reads a node. -/
def readNode : Value → Checked Node
  | .record entries =>
    match Record.get? entries (.str "type") with
    | none => .fail .noTag
    | some name =>
      match kindOfName? name with
      | none => .fail .unknownTag
      | some kind => (readNodeOf kind entries).under (.name kind.name)
  | _ => .fail .notAttributes

/-- Reads the parts of an edge. -/
def readEdgeParts (entries : List (Atom × Value)) : Checked Edge :=
  (optional ["id"] none text? entries
    |>.both (required ["source"] text entries)
    |>.both (optional ["sourceHandle", "source_handle"] none text? entries)
    |>.both (required ["target"] text entries)
    |>.both (optional ["targetHandle", "target_handle"] none text? entries)).map
    fun ((((id, source), sourceHandle), target), targetHandle) =>
      ⟨id, source, sourceHandle, target, targetHandle⟩

/-- Reads an edge. -/
def readEdge : Value → Checked Edge := model readEdgeParts

/-- Reads the parts of a graph. -/
def readParts (entries : List (Atom × Value)) : Checked Graph :=
  (optional ["nodes"] [] (list readNode) entries
    |>.both (optional ["edges"] [] (list readEdge) entries)
    |>.both (optional ["metadata"] [] (record any) entries)).map
    fun ((nodes, edges), metadata) => ⟨nodes, edges, metadata⟩

/-- Reads a graph from a document. -/
def read (v : Value) : Except DocumentError Graph := document readParts v

end NodeFlow.Graph
