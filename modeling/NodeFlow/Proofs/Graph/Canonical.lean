import NodeFlow.Proofs.Digraph.Canonical
import NodeFlow.Proofs.Graph.Order

/-!
# The canonical order of nodes

The order of some nodes is made of the strongly connected components of the edges between them, each
in listing order.  Of all ways to put the components so that no edge leads backwards from one to
another, it is the first by the places of the components' first nodes (`order_canonical`).  How
often and in what order the nodes are asked for, and the edges are listed, makes no difference to
it.
-/

open Relation

namespace NodeFlow.Graph

variable (g : Graph)

/-- A name is among the given ones, and that of a node. -/
def Among (ids : List String) (id : String) : Prop := id ∈ g.ids ∧ id ∈ ids

/-- `g.Joins ids id other`: an edge runs from one to the other of two nodes among the given ones. -/
def Joins (ids : List String) (id other : String) : Prop :=
  g.Among ids id ∧ g.Among ids other ∧ ∃ e ∈ g.edges, e.source = id ∧ e.target = other

variable {g} {ids : List String} {id other : String}

/-! ### Places -/

theorem place_eq_idxOf (id : String) : g.place id = g.ids.idxOf id := by
  rw [place, ids, List.idxOf, List.findIdx_map]
  rfl

/-- Without repetition, the names of the nodes come in the order of their places. -/
theorem distinctIds_pairwise :
    g.distinctIds.Pairwise fun id other => g.place id < g.place other := by
  refine pairwise_eraseDups fun before other after hsplit hnew id hid => ?_
  rw [place_eq_idxOf, place_eq_idxOf, hsplit, List.idxOf_append_of_mem hid,
    List.idxOf_append_of_notMem hnew, List.idxOf_cons_self]
  exact List.idxOf_lt_length_iff.2 hid

/-! ### The nodes asked for, with the edges between them -/

/-- The nodes of the given names in listing order, with the edges between them. -/
def restriction (g : Graph) (ids : List String) : Digraph String :=
  g.restrict (g.distinctIds.filter ids.contains)

theorem mem_vertices_restriction : id ∈ (g.restriction ids).vertices ↔ g.Among ids id := by
  show id ∈ g.distinctIds.filter ids.contains ↔ _
  rw [List.mem_filter, mem_distinctIds, List.contains_iff_mem, Among]

theorem arrow_restriction_iff : (g.restriction ids).Arrow id other ↔ g.Joins ids id other := by
  rw [restriction, arrow_restrict_iff, Joins]
  have hmem (id : String) : id ∈ g.distinctIds.filter ids.contains ↔ g.Among ids id :=
    mem_vertices_restriction
  rw [hmem, hmem]
  exact ⟨fun ⟨he, h, h'⟩ => ⟨h, h', he⟩, fun ⟨h, h', he⟩ => ⟨he, h, h'⟩⟩

theorem arrow_restriction : (g.restriction ids).Arrow = g.Joins ids := by
  funext id other
  exact propext arrow_restriction_iff

/-- **The order of nodes is canonical.**  It has each of the given names that is a node's once, and
no other.  It is put together of the strongly connected components of the edges between these nodes,
each in the order of its nodes' first places in the graph; no edge leads from a later component into
an earlier one; and in any other list of the components with these properties, the places of the
components' first nodes come later in the lexicographic order.  The order does not change where the
same names are given, and the same edges listed, in another order or repeatedly. -/
theorem order_canonical (g : Graph) (ids : List String) :
    (g.order ids).Nodup ∧
    (∀ id, id ∈ g.order ids ↔ id ∈ g.ids ∧ id ∈ ids) ∧
    (∃ cs, IsArrangement (g.Among ids) (g.Joins ids) g.place cs ∧ g.order ids = cs.flatten ∧
      ∀ cs', IsArrangement (g.Among ids) (g.Joins ids) g.place cs' →
        cs' = cs ∨ cs.map (leading g.place) < cs'.map (leading g.place)) ∧
    ∀ (ids' : List String) (edges' : List Edge), (∀ id, id ∈ ids' ↔ id ∈ ids) →
      (∀ e, e ∈ edges' ↔ e ∈ g.edges) →
      ({ g with edges := edges' } : Graph).order ids' = g.order ids := by
  have hvertex : (· ∈ (g.restriction ids).vertices) = g.Among ids := by
    funext id
    exact propext mem_vertices_restriction
  refine ⟨order_nodup, fun id => mem_order_iff, ?_, fun ids' edges' hids hedges => ?_⟩
  · have hleast := Digraph.order_least (d := g.restriction ids) (closed_restrict _)
      (distinctIds_pairwise.filter _)
    rwa [hvertex, arrow_restriction] at hleast
  · refine Digraph.order_congr (d := restriction { g with edges := edges' } ids')
      (closed_restrict _) ?_ ?_
    · exact List.filter_congr fun id _ => by
        rw [Bool.eq_iff_iff, List.contains_iff_mem, List.contains_iff_mem, hids]
    · show (restriction { g with edges := edges' } ids').Arrow = (g.restriction ids).Arrow
      rw [arrow_restriction, arrow_restriction]
      funext id other
      simp only [Joins, Among, hids, hedges]
      rfl

end NodeFlow.Graph
