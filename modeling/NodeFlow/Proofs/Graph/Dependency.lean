import NodeFlow.Graph.Origin
import NodeFlow.Proofs.Trail
import Mathlib.Data.List.Nodup

/-!
# Dependencies

The value of a node is made of the values at the sources of the edges that count: of each declared
input of an operator the last edge into it, of an output the last edge of all.  These sources are
the node's dependencies.  A node from which a cycle of dependencies can be reached is *circular*;
the others are those whose dependencies unfold into a finite tree.
-/

open Relation

namespace NodeFlow.Graph

variable (g : Graph)

/-- The names of the nodes whose values a node's value is made of. -/
def dependencies (id : String) : List String :=
  match g.node? id with
  | none => []
  | some n => (g.origin n).edges.map (·.source)

/-- `g.Depends id other`: the value of the node `id` is made of that of `other`, among others. -/
def Depends (id other : String) : Prop := other ∈ g.dependencies id

instance : DecidableRel g.Depends := fun id other =>
  inferInstanceAs (Decidable (other ∈ g.dependencies id))

/-- A node that depends on itself, at once or through others. -/
def OnCycle (id : String) : Prop := TransGen g.Depends id id

/-- A node from which a cycle of dependencies can be reached. -/
def Circular (id : String) : Prop := ∃ c, ReflTransGen g.Depends id c ∧ g.OnCycle c

/-- No cycle of dependencies can be reached from any node. -/
def Acyclic : Prop := ∀ id ∈ g.ids, ¬ g.Circular id

variable {g} {id other : String} {n : Node}

/-! ### Nodes and their names -/

theorem node?_id (h : g.node? id = some n) : n.id = id := by
  have := List.find?_some h
  simpa using this

theorem mem_nodes_of_node? (h : g.node? id = some n) : n ∈ g.nodes :=
  List.mem_reverse.1 (List.mem_of_find?_eq_some h)

theorem mem_ids_of_node? (h : g.node? id = some n) : id ∈ g.ids := by
  rw [← node?_id h]
  exact List.mem_map_of_mem (mem_nodes_of_node? h)

theorem node?_isSome_iff : (g.node? id).isSome ↔ id ∈ g.ids := by
  constructor
  · intro h
    obtain ⟨n, hn⟩ := Option.isSome_iff_exists.1 h
    exact mem_ids_of_node? hn
  · intro h
    obtain ⟨n, hn, rfl⟩ := List.mem_map.1 h
    rw [node?, List.find?_isSome]
    exact ⟨n, List.mem_reverse.2 hn, beq_self_eq_true _⟩

theorem node?_eq_none_iff : g.node? id = none ↔ id ∉ g.ids := by
  rw [← node?_isSome_iff, Option.isSome_iff_ne_none, not_not]

theorem node?_of_mem (hids : g.ids.Nodup) (hn : n ∈ g.nodes) : g.node? n.id = some n := by
  have hsome : (g.node? n.id).isSome := node?_isSome_iff.2 (List.mem_map_of_mem hn)
  obtain ⟨m, hm⟩ := Option.isSome_iff_exists.1 hsome
  rw [hm, List.inj_on_of_nodup_map hids (mem_nodes_of_node? hm) hn (node?_id hm)]

theorem length_ids : g.ids.length = g.nodes.length := List.length_map _

/-! ### Dependencies -/

theorem depends_iff (h : g.node? id = some n) :
    g.Depends id other ↔ ∃ e ∈ (g.origin n).edges, e.source = other := by
  rw [Depends, dependencies, h]
  exact List.mem_map

theorem depends_source (h : g.node? id = some n) {e : Edge} (he : e ∈ (g.origin n).edges) :
    g.Depends id e.source :=
  (depends_iff h).2 ⟨e, he, rfl⟩

/-- A name that is no node's depends on nothing. -/
theorem Depends.exists_node (h : g.Depends id other) : ∃ n, g.node? id = some n := by
  cases hn : g.node? id with
  | none => simp [Depends, dependencies, hn] at h
  | some n => exact ⟨n, rfl⟩

/-! ### Cycles -/

theorem OnCycle.circular (h : g.OnCycle id) : g.Circular id := ⟨id, .refl, h⟩

/-- A node is circular exactly if it depends on a circular one. -/
theorem circular_iff : g.Circular id ↔ ∃ other, g.Depends id other ∧ g.Circular other :=
  reachesCycle_iff

theorem not_circular_of_depends (h : ¬ g.Circular id) (hd : g.Depends id other) :
    ¬ g.Circular other :=
  fun ho => h (circular_iff.2 ⟨other, hd, ho⟩)

theorem not_circular_source (h : ¬ g.Circular id) (hn : g.node? id = some n) {e : Edge}
    (he : e ∈ (g.origin n).edges) : ¬ g.Circular e.source :=
  not_circular_of_depends h (depends_source hn he)

theorem not_circular_of_node?_eq_none (h : g.node? id = none) : ¬ g.Circular id := by
  intro hc
  obtain ⟨other, hd, -⟩ := circular_iff.1 hc
  obtain ⟨n, hn⟩ := hd.exists_node
  rw [h] at hn
  cases hn

theorem Acyclic.not_circular (h : g.Acyclic) (id : String) : ¬ g.Circular id := by
  by_cases hid : id ∈ g.ids
  · exact h id hid
  · exact not_circular_of_node?_eq_none (node?_eq_none_iff.2 hid)

theorem not_circular_of_leaf (h : g.node? id = some n) (leaf : (g.origin n).edges = []) :
    ¬ g.Circular id := by
  intro hc
  obtain ⟨other, hd, -⟩ := circular_iff.1 hc
  obtain ⟨e, he, -⟩ := (depends_iff h).1 hd
  rw [leaf] at he
  cases he

/-! ### Descents along dependencies -/

theorem trail_start {depth : Nat} (h : g.nodes.length < depth) (id : String) :
    Trail g.Depends g.ids [] id depth :=
  .start id (by rwa [length_ids])

/-- A node that is not circular is not met again. -/
theorem notMem_of_not_circular {way : List String} {depth : Nat}
    (trail : Trail g.Depends g.ids way id depth) (hc : ¬ g.Circular id) : id ∉ way :=
  fun hw => hc (OnCycle.circular (trail.leads id hw))

end NodeFlow.Graph
