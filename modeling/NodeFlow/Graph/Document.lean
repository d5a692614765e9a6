import NodeFlow.Document.Printer
import NodeFlow.Graph.Basic
import NodeFlow.Value.Equality

/-!
# Graphs as documents

The document of a graph has all its parts but the missing ones: a part that is nothing is left out,
since it is read as nothing again. What a constant holds and what is noted about the graph is kept
as it is.
-/

namespace NodeFlow

/-- The entries of a record, in order and without those that are missing. -/
def presentEntries (entries : List (String × Option Value)) : Value :=
  .record (entries.filterMap fun (name, v?) => v?.map fun v => (.str name, v))

/-- A value unless it is nothing. -/
def Value.present? (v : Value) : Option Value := if v = .null then none else some v

/-- A record under texts as a value. -/
def Value.ofNamed (entries : List (String × Value)) : Value :=
  .record (entries.map fun (name, v) => (.str name, v))

/-- What a node holds as a document. -/
def Content.toDocument : Content → Value
  | .field path dtype label =>
    presentEntries [("path", some (.str path)), ("dtype", some (.str dtype.name)),
      ("label", label.map .str)]
  | .const value dtype label =>
    presentEntries [("value", value.present?), ("dtype", some (.str dtype.name)),
      ("label", label.map .str)]
  | .operator op label inputs =>
    presentEntries [("opId", some (.str op)), ("label", label.map .str),
      ("exprs", some (.list (inputs.map .str)))]
  | .output label result =>
    presentEntries [("label", some (.str label)), ("result", result.present?)]

/-- A node as a document. -/
def Node.toDocument (n : Node) : Value :=
  let position : Option Value :=
    n.position.map fun p => .ofNamed (p.map fun (axis, x) => (axis, .float x))
  presentEntries [("id", some (.str n.id)), ("position", position),
    ("type", some (.str n.kind.name)), ("data", some n.content.toDocument)]

/-- An edge as a document. -/
def Edge.toDocument (e : Edge) : Value :=
  presentEntries [("id", e.id.map .str), ("source", some (.str e.source)),
    ("sourceHandle", e.sourceHandle.map .str), ("target", some (.str e.target)),
    ("targetHandle", e.targetHandle.map .str)]

namespace Graph

/-- A graph as a document. -/
def toDocument (g : Graph) : Value :=
  presentEntries [("nodes", some (.list (g.nodes.map Node.toDocument))),
    ("edges", some (.list (g.edges.map Edge.toDocument))), ("metadata", some (.ofNamed g.metadata))]

/-- The text of a graph. -/
def toText (g : Graph) : String := Document.print g.toDocument

/-- Whether two graphs say the same. One that holds what is no number does not even say the same as
itself. -/
def saysSame (g h : Graph) : Bool := g.toDocument.equals h.toDocument

end Graph

end NodeFlow
