import NodeFlow.Proofs.Graph.Loops
import NodeFlow.Proofs.Graph.Roots
import NodeFlow.Proofs.Graph.Unfolding

/-!
# The listing of nodes

Where nodes have names of their own, all that is read off a graph by name stays the same when its
nodes are listed in another order: which node has a name, the edges that count for it, what it
unfolds into, the loop that governs it, and whether it is a root.
-/

open Relation

namespace NodeFlow.Graph

/-- The graph `g'` has the nodes of `g`, which have names of their own, in some order, and the same
edges in the same order. -/
structure Relists (g g' : Graph) : Prop where
  distinct : g.ids.Nodup
  nodes : g'.nodes.Perm g.nodes
  edges : g'.edges = g.edges

namespace Relists

variable {g g' : Graph} {id : String} {t : Unfolding}

theorem ids (h : g.Relists g') : g'.ids.Perm g.ids := h.nodes.map _

theorem symm (h : g.Relists g') : g'.Relists g where
  distinct := h.ids.nodup_iff.2 h.distinct
  nodes := h.nodes.symm
  edges := h.edges.symm

/-! ### Nodes and edges -/

theorem node? (h : g.Relists g') (id : String) : g'.node? id = g.node? id := by
  cases hn : g.node? id with
  | none =>
    rw [node?_eq_none_iff] at hn ⊢
    rwa [h.ids.mem_iff]
  | some n =>
    rw [← node?_id hn]
    exact node?_of_mem h.symm.distinct (h.nodes.mem_iff.2 (mem_nodes_of_node? hn))

theorem isLoop (h : g.Relists g') (id : String) : g'.isLoop id = g.isLoop id := by
  rw [Graph.isLoop, Graph.isLoop, h.node?]

theorem isScopeEdge (h : g.Relists g') : g'.isScopeEdge = g.isScopeEdge := by
  funext e
  rw [Graph.isScopeEdge, Graph.isScopeEdge, h.isLoop]

theorem dataIn (h : g.Relists g') (id : String) : g'.dataIn id = g.dataIn id := by
  rw [Graph.dataIn, Graph.dataIn, h.edges, h.isScopeEdge]

theorem inputEdge? (h : g.Relists g') (id : String) (handle : Option String) :
    g'.inputEdge? id handle = g.inputEdge? id handle := by
  rw [Graph.inputEdge?, Graph.inputEdge?, h.dataIn]

theorem origin (h : g.Relists g') (n : Node) : g'.origin n = g.origin n := by
  unfold Graph.origin
  simp only [h.inputEdge?, Graph.valueEdge?, h.dataIn]

/-! ### Unfoldings -/

theorem unfolds (h : g.Relists g') (ht : g.Unfolds id t) : g'.Unfolds id t := by
  induction ht with
  | absent hn => exact .absent ((h.node? _).trans hn)
  | node hn children _ ih =>
    rw [← h.origin] at ih ⊢
    exact .node ((h.node? _).trans hn) children ih

theorem unfolding? (h : g.Relists g') (id : String) : g'.unfolding? id = g.unfolding? id := by
  refine Option.ext fun t => ?_
  rw [unfolding?_eq_some_iff, unfolding?_eq_some_iff]
  exact ⟨h.symm.unfolds, h.unfolds⟩

/-! ### Loops and roots -/

theorem carries (h : g.Relists g') : g'.Carries = g.Carries := by
  funext id other
  rw [Carries, Carries, h.edges, h.isScopeEdge, h.ids.mem_iff, h.ids.mem_iff]

theorem seeds (h : g.Relists g') : g'.seeds = g.seeds := by
  have hhas : g'.has = g.has := by
    funext id
    rw [Bool.eq_iff_iff, has_iff, has_iff, h.ids.mem_iff]
  rw [Graph.seeds, Graph.seeds, h.edges, h.isScopeEdge, hhas]

theorem loopOf? (h : g.Relists g') (id : String) : g'.loopOf? id = g.loopOf? id := by
  refine Option.ext fun loop => ?_
  rw [loopOf?_eq_some_iff, loopOf?_eq_some_iff, h.carries, h.seeds]
  simp only [claimant?, h.edges, h.isScopeEdge]

theorem mem_roots_iff (h : g.Relists g') :
    id ∈ g'.roots.map (·.node) ↔ id ∈ g.roots.map (·.node) := by
  simp only [mem_map_node_roots, isSink, edgesFrom, h.nodes.mem_iff, h.ids.mem_iff, h.edges,
    h.isLoop]

end Relists

end NodeFlow.Graph
