import NodeFlow.Text.Segments
import NodeFlow.Value.Dtype
import NodeFlow.Value.Text

/-!
# Paths into records

A path is a text of keys separated by points. Following it goes from record to record; where it
leads nowhere the answer is nothing. The paths of a record lead to its leaves, which are the values
that are not records and the empty records.
-/

namespace NodeFlow.Value

/-- The value under a text key, or nothing. -/
def child (v : Value) (key : List Char) : Value :=
  match v with
  | record entries => (Record.get? entries (.ofText (String.ofList key))).getD null
  | _ => null

/-- The value that a path leads to, or nothing. -/
def follow (v : Value) (path : String) : Value :=
  (Text.segments '.' path.toList).foldl child v

/-- The path of a key below a base path. -/
def extendPath (base : String) (key : Atom) : String :=
  if base.isEmpty then key.text else base ++ "." ++ key.text

mutual

/-- The paths of the leaves of a value that lies at a path, with the types the leaves suggest. -/
def leafPathsAt (path : String) : Value → List (String × Dtype)
  | record entries =>
    if entries.isEmpty then [(path, .any)] else entryPaths path entries
  | v => [(path, Dtype.infer v)]

/-- The paths of the leaves of a record's entries, below a base path. -/
def entryPaths (base : String) : List (Atom × Value) → List (String × Dtype)
  | [] => []
  | (k, v) :: rest => leafPathsAt (extendPath base k) v ++ entryPaths base rest

end

/-- The paths of the leaves of a record, below a base path; a value that is no record has none. -/
def leafPaths (base : String) : Value → List (String × Dtype)
  | record entries => entryPaths base entries
  | _ => []

end NodeFlow.Value
