/-!
# Tokens of a document

The parts into which the text of a document is cut. Collections come in two kinds: those told by
indentation, whose starts and ends are tokens without a text of their own, and those in brackets.
-/

namespace NodeFlow.Document

/-- What a directive says before a document. -/
inductive Directive where
  /-- The version of the notation. -/
  | version (major minor : Nat)
  /-- The beginning that a handle of tags stands for. -/
  | handle (name uri : String)
  /-- Anything else. -/
  | other
deriving DecidableEq, Repr

/-- A part of the text of a document. -/
inductive Token where
  | directive (d : Directive)
  | documentStart
  | documentEnd
  | blockSequence
  | blockMapping
  | blockEnd
  | flowSequence
  | flowSequenceEnd
  | flowMapping
  | flowMappingEnd
  | blockEntry
  | flowEntry
  | key
  | value
  | alias (name : String)
  | anchor (name : String)
  /-- A tag, given by a handle and a suffix, or as a whole. -/
  | tag (handle : Option String) (suffix : String)
  /-- A text, and whether it is written without quotes. -/
  | scalar (text : String) (plain : Bool)
  /-- The end of the text. -/
  | finish
deriving DecidableEq, Repr

end NodeFlow.Document
