import NodeFlow.Graph.Order
import NodeFlow.Proofs.Digraph.Order
import NodeFlow.Proofs.Graph.Dependency
import NodeFlow.Proofs.Graph.Origin

/-!
# The order of the nodes of a graph

The order has each node that is asked for once (`mem_order_iff`, `order_nodup`), and in a graph
without cycles no path leads backwards in it (`order_ids_pairwise`).  As data comes by edges, such a
graph has no cycles of dependencies either (`acyclic_of_arrow`).
-/

open Relation

namespace NodeFlow.Graph

variable {g : Graph} {id other : String} {ids : List String}

theorem mem_distinctIds : id ∈ g.distinctIds ↔ id ∈ g.ids := List.mem_eraseDups

/-- The arrows between some nodes are the edges between them. -/
theorem arrow_restrict_iff : (g.restrict ids).Arrow id other ↔
    (∃ e ∈ g.edges, e.source = id ∧ e.target = other) ∧ id ∈ ids ∧ other ∈ ids := by
  simp only [restrict, Digraph.Arrow, List.mem_map, List.mem_filter, Bool.and_eq_true,
    List.contains_iff_mem, Prod.mk.injEq]
  constructor
  · rintro ⟨e, ⟨he, hends⟩, rfl, rfl⟩
    exact ⟨⟨e, he, rfl, rfl⟩, hends⟩
  · rintro ⟨⟨e, he, rfl, rfl⟩, hends⟩
    exact ⟨e, ⟨he, hends⟩, rfl, rfl⟩

theorem closed_restrict (ids : List String) : (g.restrict ids).Closed :=
  fun _ _ harrow => (arrow_restrict_iff.1 harrow).2

theorem closed_digraph : g.digraph.Closed := closed_restrict _

theorem mem_order_iff : id ∈ g.order ids ↔ id ∈ g.ids ∧ id ∈ ids := by
  rw [order, Digraph.mem_order_iff (closed_restrict _), restrict, List.mem_filter, mem_distinctIds,
    List.contains_iff_mem]

/-- Each node asked for is in the order. -/
theorem mem_order (hid : id ∈ g.ids) (h : id ∈ ids) : id ∈ g.order ids := mem_order_iff.2 ⟨hid, h⟩

theorem order_nodup : (g.order ids).Nodup :=
  Digraph.order_nodup (closed_restrict _) ((nodup_eraseDups g.ids).filter _)

theorem order_ids (g : Graph) : g.order g.ids = g.digraph.order := by
  have hall : g.distinctIds.filter g.ids.contains = g.distinctIds :=
    List.filter_eq_self.2 fun id hid => List.contains_iff_mem.2 (mem_distinctIds.1 hid)
  rw [order, hall, digraph]

/-- In a graph without cycles, no path leads backwards in the order of all nodes. -/
theorem order_ids_pairwise (hg : ∀ v, ¬ TransGen g.digraph.Arrow v v) :
    (g.order g.ids).Pairwise fun v u => ¬ TransGen g.digraph.Arrow u v := by
  rw [order_ids]
  refine (Digraph.order_pairwise_reaches closed_digraph).imp fun h hpath => ?_
  exact hg _ (hpath.trans_left (h hpath.to_reflTransGen).2)

/-- What leads to a node from outside its component comes before it. -/
theorem mem_before_of_reaches {before after : List String}
    (horder : g.order g.ids = before ++ id :: after) (hother : other ∈ g.ids)
    (hreach : ReflTransGen g.digraph.Arrow other id) (hmutual : ¬ g.digraph.Mutual id other) :
    other ∈ before := by
  have hback := Digraph.order_pairwise_reaches (closed_digraph (g := g))
  have hmem : other ∈ g.order g.ids := mem_order hother hother
  rw [← order_ids, horder, List.pairwise_append, List.pairwise_cons] at hback
  rw [horder, List.mem_append, List.mem_cons] at hmem
  rcases hmem with hbefore | rfl | hafter
  · exact hbefore
  · exact absurd (.refl other) hmutual
  · exact absurd (hback.2.1.1 other hafter hreach).symm hmutual

/-! ### Dependencies -/

theorem mem_edges_of_origin {n : Node} {e : Edge} (hn : g.node? id = some n)
    (he : e ∈ (g.origin n).edges) : e ∈ g.edges ∧ e.target = id := by
  obtain ⟨hedge, hin⟩ := List.mem_filter.1 (mem_dataIn_of_origin he)
  simp only [Bool.and_eq_true, beq_iff_eq] at hin
  exact ⟨hedge, by rw [hin.1, node?_id hn]⟩

theorem arrow_of_depends (h : g.Depends id other) (hother : other ∈ g.ids) :
    g.digraph.Arrow other id := by
  obtain ⟨n, hn⟩ := h.exists_node
  obtain ⟨e, he, rfl⟩ := (depends_iff hn).1 h
  obtain ⟨hedge, htarget⟩ := mem_edges_of_origin hn he
  exact arrow_restrict_iff.2 ⟨⟨e, hedge, rfl, htarget⟩, mem_distinctIds.2 hother,
    mem_distinctIds.2 (mem_ids_of_node? hn)⟩

theorem transGen_arrow_of_depends (h : TransGen g.Depends id other) (hother : other ∈ g.ids) :
    TransGen g.digraph.Arrow other id := by
  induction h using TransGen.head_induction_on with
  | single h => exact .single (arrow_of_depends h hother)
  | head h hrest ih =>
    obtain ⟨b, hb, -⟩ := TransGen.head'_iff.1 hrest
    obtain ⟨n, hn⟩ := hb.exists_node
    exact ih.tail (arrow_of_depends h (mem_ids_of_node? hn))

theorem acyclic_of_arrow (hg : ∀ v, ¬ TransGen g.digraph.Arrow v v) : g.Acyclic := by
  rintro id - ⟨c, -, hc⟩
  obtain ⟨b, hb, -⟩ := TransGen.head'_iff.1 hc
  obtain ⟨n, hn⟩ := hb.exists_node
  exact hg c (transGen_arrow_of_depends hc (mem_ids_of_node? hn))

end NodeFlow.Graph
