import NodeFlow.Graph.Roots
import Mathlib.Data.List.Nodup

/-!
# Roots are nodes

The roots of a graph are taken from its nodes: either they are its outputs, or it has none and they
are labelled because nothing uses their values.  Where nodes have names of their own, no node is the
root twice (`roots_nodup`).
-/

namespace NodeFlow.Graph

variable {g : Graph} {root : Root}

theorem map_node_outputRoots :
    g.outputRoots.map (·.node) = (g.nodes.filter (·.kind == .output)).map (·.id) := by
  rw [outputRoots, List.mapIdx_eq_zipIdx_map, List.map_map]
  have hlabels (labels : List (String × String)) :
      (labels.zipIdx.map fun x => x.1.1) = labels.map (·.1) := by
    conv_rhs => rw [← List.zipIdx_map_fst 0 labels, List.map_map]
    rfl
  refine (hlabels _).trans ?_
  induction g.nodes with
  | nil => rfl
  | cons n rest ih =>
    cases hcontent : n.content <;> simp [Node.kind, hcontent, ih]

/-- The labelled sinks are those labelled before and the given nodes. -/
theorem mem_map_node_labelSinks {before : List Root} {nodes : List Node} {id : String} :
    id ∈ (labelSinks before nodes).map (·.node) ↔
      id ∈ before.map (·.node) ∨ id ∈ nodes.map (·.id) := by
  induction nodes generalizing before with
  | nil => simp [labelSinks]
  | cons n rest ih =>
    rw [labelSinks, List.map_cons, List.mem_cons]
    split
    · next hused =>
      have hn : n.id ∈ before.map (·.node) := by simpa using hused
      rw [ih]
      constructor
      · exact Or.imp_right .inr
      · rintro (h | rfl | h)
        · exact .inl h
        · exact .inl hn
        · exact .inr h
    · rw [ih, List.map_append, List.mem_append, or_assoc]
      simp

/-- The roots are the outputs if there are any, and otherwise all sinks. -/
theorem mem_map_node_roots {id : String} : id ∈ g.roots.map (·.node) ↔
    if ∃ n ∈ g.nodes, n.kind = .output then ∃ n ∈ g.nodes, n.kind = .output ∧ n.id = id
    else id ∈ g.ids ∧ g.isSink id = true := by
  have hempty : g.outputRoots.isEmpty = true ↔ ¬ ∃ n ∈ g.nodes, n.kind = .output := by
    rw [List.isEmpty_iff, ← List.map_eq_nil_iff (f := (·.node)), map_node_outputRoots]
    simp
  rw [roots]
  split
  · next h =>
    rw [if_neg (hempty.1 h), mem_map_node_labelSinks]
    simp only [List.map_nil, List.not_mem_nil, false_or, List.mem_map, List.mem_filter, ids]
    constructor
    · rintro ⟨n, ⟨hn, hsink⟩, rfl⟩
      exact ⟨⟨n, hn, rfl⟩, hsink⟩
    · rintro ⟨⟨n, hn, rfl⟩, hsink⟩
      exact ⟨n, ⟨hn, hsink⟩, rfl⟩
  · next h =>
    rw [if_pos (not_not.1 fun hnone => h (hempty.2 hnone)), map_node_outputRoots]
    simp [and_assoc]

theorem mem_ids_of_mem_roots (h : root ∈ g.roots) : root.node ∈ g.ids := by
  have hnode : root.node ∈ g.roots.map (·.node) := List.mem_map_of_mem h
  rw [mem_map_node_roots] at hnode
  split at hnode
  · obtain ⟨n, hn, -, hid⟩ := hnode
    exact hid ▸ List.mem_map_of_mem hn
  · exact hnode.1

theorem nodup_labelSinks {before : List Root} (h : (before.map (·.node)).Nodup)
    (nodes : List Node) : ((labelSinks before nodes).map (·.node)).Nodup := by
  induction nodes generalizing before with
  | nil => exact h
  | cons n rest ih =>
    rw [labelSinks]
    split
    · exact ih h
    · next hnew =>
      refine ih ?_
      rw [List.map_append]
      refine List.nodup_append.2 ⟨h, List.nodup_singleton _, ?_⟩
      rintro id hid other hother rfl
      obtain ⟨r, hr, rfl⟩ := List.mem_map.1 hid
      refine hnew (List.any_eq_true.2 ⟨r, hr, ?_⟩)
      simpa using hother

theorem roots_nodup (hids : g.ids.Nodup) : (g.roots.map (·.node)).Nodup := by
  rw [roots]
  split
  · have hnone : (([] : List Root).map (·.node)).Nodup := List.nodup_nil
    exact nodup_labelSinks hnone _
  · rw [map_node_outputRoots]
    exact hids.sublist (List.filter_sublist.map _)

/-- Either the roots are outputs, or the graph has no outputs. -/
theorem roots_cases : (∀ root ∈ g.roots, ∃ n ∈ g.nodes, n.id = root.node ∧ n.kind = .output) ∨
    ∀ n ∈ g.nodes, n.kind ≠ .output := by
  rw [roots]
  split
  · next hempty =>
    refine .inr fun n hn hkind => ?_
    have hmem : n.id ∈ g.outputRoots.map (·.node) := by
      rw [map_node_outputRoots]
      exact List.mem_map_of_mem (List.mem_filter.2 ⟨hn, beq_iff_eq.2 hkind⟩)
    rw [List.isEmpty_iff.1 hempty] at hmem
    cases hmem
  · refine .inl fun root hroot => ?_
    have hnode : root.node ∈ g.outputRoots.map (·.node) := List.mem_map_of_mem hroot
    rw [map_node_outputRoots] at hnode
    obtain ⟨n, hn, hid⟩ := List.mem_map.1 hnode
    obtain ⟨hmem, hkind⟩ := List.mem_filter.1 hn
    exact ⟨n, hmem, hid, beq_iff_eq.1 hkind⟩

end NodeFlow.Graph
