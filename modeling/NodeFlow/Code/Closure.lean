import NodeFlow.Graph.Loops

/-!
# What a loop has to compute

The nodes from which data flows to given ones inside of a loop. They are searched backwards from a
stack of nodes to look at, on which a node may lie more than once.
-/

namespace NodeFlow.Code

/-- A search: the nodes found, in order, and those to look at, the next one first. -/
structure Search where
  found : List String
  waiting : List String
deriving DecidableEq, Repr

/-- The next node is found unless it was before or is not owned. Then the sources of its data edges
have to be looked at, the last one first. -/
def Search.step (g : Graph) (owned : String → Bool) : Search → Search
  | ⟨found, []⟩ => ⟨found, []⟩
  | ⟨found, id :: waiting⟩ =>
    if found.contains id || !owned id then ⟨found, waiting⟩
    else ⟨found ++ [id], ((g.dataIn id).map (·.source)).reverse ++ waiting⟩

/-- So many steps of a search. -/
def Search.run (g : Graph) (owned : String → Bool) : Nat → Search → Search
  | 0, s => s
  | steps + 1, s => run g owned steps (s.step g owned)

/-- The search from some nodes, the last one first. -/
def Search.start (seeds : List String) : Search := ⟨[], seeds.reverse⟩

/-- The nodes of a loop from which data flows to given ones inside the loop, these included. Each
seed is looked at once, and so is the source of each edge at most. -/
def governedClosure (g : Graph) (governed : List Graph.Governed) (loop : String)
    (seeds : List String) : List String :=
  let owned (id : String) := governed.lookup id == some loop
  (Search.run g owned (seeds.length + g.edges.length) (.start seeds)).found

end NodeFlow.Code
