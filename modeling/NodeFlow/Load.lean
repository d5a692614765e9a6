import NodeFlow.Document.Contents
import NodeFlow.Graph.Reader
import NodeFlow.Settings

/-!
# Graphs and settings from text

A graph or settings are read from the text of a document. The text may not be a document at all, and
the document may not describe what it should.
-/

namespace NodeFlow

/-- Why nothing can be read from a text. -/
inductive LoadError where
  /-- The text is no document. -/
  | document (fault : Document.Fault)
  /-- The document does not describe what it should. -/
  | contents (error : Schema.DocumentError)
deriving DecidableEq, Repr

/-- The value of the document in a text. One that counts as false stands for a record of nothing. -/
def valueOfText (text : String) : Except LoadError Value := do
  let v ← (Document.read text).mapError .document
  return if v.truthy then v else .record []

/-- Reads a graph from a text. -/
def Graph.ofText (text : String) : Except LoadError Graph := do
  (Graph.read (← valueOfText text)).mapError .contents

/-- Reads settings from a text. -/
def Settings.ofText (text : String) : Except LoadError Settings := do
  (Settings.read (← valueOfText text)).mapError .contents

end NodeFlow
