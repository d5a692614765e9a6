import NodeFlow.Document.Implicit

/-!
# The outline of a document

The parts of a document: texts, lists of parts and records of parts, each with its tag. Parts are
known by number, so that an alias is one more mention of the part it refers to. In this way a part
may have several places in a document, and may even lie inside itself.
-/

namespace NodeFlow.Document

/-- The number of a part in its document. -/
abbrev PartId := Nat

/-- A part of a document. -/
inductive Part where
  | scalar (tag : Tag) (text : String)
  | list (tag : Tag) (items : List PartId)
  | record (tag : Tag) (entries : List (PartId × PartId))

namespace Part

/-- The part that is left out. -/
def null : Part := scalar .null ""

/-- The tag of a part. -/
def tag : Part → Tag
  | scalar tag _ | list tag _ | record tag _ => tag

/-- The same part with another tag. -/
def withTag (tag : Tag) : Part → Part
  | scalar _ text => scalar tag text
  | list _ items => list tag items
  | record _ entries => record tag entries

/-- The entries of a record; other parts have none. -/
def entries : Part → List (PartId × PartId)
  | record _ entries => entries
  | _ => []

end Part

/-- The parts of a document. -/
structure Outline where
  /-- The parts by number. -/
  parts : Array Part
  /-- The numbers of the parts in the order in which the parts end. -/
  order : List PartId
  /-- The part that all others lie in. -/
  root : PartId
  /-- Whether a part lies inside itself. -/
  circular : Bool

end NodeFlow.Document
