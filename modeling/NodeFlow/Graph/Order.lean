import NodeFlow.Digraph
import NodeFlow.Graph.Basic

/-!
# The order of nodes

Nodes in an order in which sources precede their consumers. Ties, and the members of a cycle, keep
the order in which the nodes are listed in the graph. All edges count, those of loops included.
-/

namespace NodeFlow.Graph

variable (g : Graph)

/-- The edges between nodes of the given names. -/
def restrict (ids : List String) : Digraph String where
  vertices := ids
  arrows := (g.edges.filter fun e => ids.contains e.source && ids.contains e.target).map
    fun e => (e.source, e.target)

/-- The names of the nodes, with the edges between them. -/
def digraph : Digraph String := g.restrict g.distinctIds

/-- The given names that are those of nodes, sources before consumers. -/
def order (ids : List String) : List String :=
  (g.restrict (g.distinctIds.filter ids.contains)).order

end NodeFlow.Graph
