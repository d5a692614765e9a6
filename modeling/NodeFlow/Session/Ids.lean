/-!
# Numbered names

The names that an editing session gives to new nodes: a word for the kind of node and a number that
goes up with every name.
-/

namespace NodeFlow

/-- A source of names: the word for names of no special kind, and the next number. -/
structure IdSource where
  word : String
  next : Int
deriving DecidableEq, Repr

/-- The source that a session starts with. -/
def IdSource.initial : IdSource := ⟨"n", 1⟩

/-- The next name, for a kind of things or for none. -/
def IdSource.draw (kind : String) : StateM IdSource String := do
  let source ← get
  set { source with next := source.next + 1 }
  return (if kind.isEmpty then source.word else kind) ++ "_" ++ toString source.next

end NodeFlow
