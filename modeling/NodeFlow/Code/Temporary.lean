import NodeFlow.Graph.Loops
import NodeFlow.Graph.Roots

/-!
# Temporaries

A node whose value is used at more than one place, by another operator, or across the border of a
loop, is computed once and kept in a variable. The name of the variable is made of the node's slug
and a number, so that no two nodes share one.
-/

namespace NodeFlow.Code

/-! ### Which nodes get one -/

/-- The inputs of a loop that are tested on each pass. -/
def loopSignals : List String := ["cont", "brk"]

/-- Whether an edge goes to the tests of a loop. -/
def isSignal (g : Graph) (e : Edge) : Bool :=
  g.isLoop e.target && (e.targetHandle.any loopSignals.contains)

/-- The nodes other than loops that use a node's value, one for each edge. -/
def consumers (g : Graph) (id : String) : List Node :=
  (g.dataOut id).filterMap fun e =>
    if g.isLoop e.target then none else (g.node? e.target).filter Node.takesInput

/-- Whether a node's value is kept in a variable. -/
def needsTemporary (g : Graph) (governed : List Graph.Governed) (id : String) : Bool :=
  let known := (g.node? id).any fun n => (n.operator?.bind Catalog.lookup?).isSome
  if !known || g.isLoop id then false
  else
    let users := consumers g id
    let signals := (g.dataOut id).countP (isSignal g)
    decide (2 ≤ users.length + signals)
      || users.any fun n => n.kind == .operator || governed.lookup n.id != governed.lookup id

/-! ### Names -/

/-- The name of a temporary: a base and a number. -/
structure TemporaryName where
  base : String
  number : Nat
deriving DecidableEq, Repr

/-- The text of a name. -/
def TemporaryName.text (t : TemporaryName) : String := t.base ++ "_" ++ toString t.number

/-- The names given so far. -/
abbrev Names := List (String × TemporaryName)

/-- The base of the name for a node. -/
def nameBase (g : Graph) (id : String) : String :=
  "_" ++ Text.orElse (((g.node? id).map Node.slug).getD "") "value"

/-- The name for a node, given now if it has none yet. The number makes it differ from the names of
the same base given before. -/
def temporaryName (g : Graph) (id : String) : StateM Names String := do
  match (← get).lookup id with
  | some name => return name.text
  | none =>
    let base := nameBase g id
    let name : TemporaryName := ⟨base, (← get).countP (·.2.base == base) + 1⟩
    modify ((id, name) :: ·)
    return name.text

end NodeFlow.Code
