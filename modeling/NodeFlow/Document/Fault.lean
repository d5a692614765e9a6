/-!
# Why a document cannot be read

The reader of documents works in stages: the text is cut into tokens, the tokens are arranged in an
outline, and the outline is given its contents. Each stage has its own kinds of fault.
-/

namespace NodeFlow.Document

/-- Why a text is no document, or a document has no contents. -/
inductive Fault where
  /-- The text holds a character that no document may hold. -/
  | unprintable
  /-- The text cannot be cut into tokens. -/
  | token
  /-- An escape gives a code that no character has. -/
  | noCharacter (code : Nat)
  /-- The tokens do not follow the grammar. -/
  | grammar
  /-- A part refers to no anchor, two anchors have one name, or there is a second document. -/
  | reference
  /-- A part is of another kind than its tag promises, or its tag means nothing. -/
  | content
  /-- A text is not the number that its tag promises. -/
  | numeral
  /-- A number has no digits at all. -/
  | emptyNumeral
  /-- A number has more groups of sixty than a double can hold. -/
  | largeNumeral
  /-- A word is no truth value. -/
  | truthWord
  /-- A text does not have the form of a date. -/
  | dateForm
  /-- A record stands where a date should be written. -/
  | dateRecord
  /-- A date or a time of day that does not exist. -/
  | noSuchDate
deriving DecidableEq, Repr

/-- A mapped reading succeeds only where the reading does. -/
theorem exists_of_map_eq_ok {α β : Type} {x : Except Fault α} {f : α → β} {b : β}
    (h : x.map f = .ok b) : ∃ a, x = .ok a ∧ f a = b := by
  cases x with
  | error => cases h
  | ok a => exact ⟨a, rfl, Except.ok.inj h⟩

end NodeFlow.Document
