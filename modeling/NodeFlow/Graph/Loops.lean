import NodeFlow.Graph.Basic

/-!
# What loops govern

A loop governs the nodes that its scope edges lead to, and those that data flows to from them. A
node that several loops could govern belongs to the nearest, in numbers of data edges, and of
equally near ones to the one whose scope edge is listed first. Scope edges are not followed as data,
so a loop that is itself governed starts a region of its own.
-/

namespace NodeFlow.Graph

/-- A governed node with its loop. -/
abbrev Governed := String × String

variable (g : Graph)

/-- The first mention of each node that is in the graph and not yet reached. -/
def newlyReached (reached : List Governed) : List Governed → List Governed
  | [] => []
  | (id, loop) :: rest =>
    if g.has id && !reached.any (·.1 == id) then
      (id, loop) :: newlyReached ((id, loop) :: reached) rest
    else newlyReached reached rest

/-- The nodes that scope edges lead to. -/
def governedFirst : List Governed :=
  g.newlyReached [] ((g.edges.filter g.isScopeEdge).map fun e => (e.target, e.source))

/-- All nodes reached when the data edges of the waiting nodes are followed, in order. -/
def spreadLoops : Nat → List Governed → List Governed → List Governed
  | 0, reached, _ => reached
  | _ + 1, reached, [] => reached
  | steps + 1, reached, (id, loop) :: waiting =>
    let found := g.newlyReached reached ((g.dataOut id).map fun e => (e.target, loop))
    spreadLoops steps (reached ++ found) (waiting ++ found)

/-- The governed nodes with their loops. A node waits at most once, so there are no more steps than
nodes. -/
def governed : List Governed := g.spreadLoops g.nodes.length g.governedFirst g.governedFirst

/-- The loop that governs a node, none when it is free. -/
def loopOf? (id : String) : Option String := g.governed.lookup id

end NodeFlow.Graph
