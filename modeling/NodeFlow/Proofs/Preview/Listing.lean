import NodeFlow.Proofs.Graph.Listing
import NodeFlow.Proofs.Preview.Total

/-!
# Evaluation and the listing of nodes

The order in which nodes are listed decides in which order they are evaluated, on which node of a
cycle evaluation enters it, and in which order roots get what loops leave in them.  None of it
reaches the values (`evaluate_relisted`): they are made of bottom-up values, limits of loops and
loops of roots, and each of these is the same for both listings.
-/

namespace NodeFlow

open Preview

namespace Graph.Relists

variable {g g' : Graph}

theorem value (h : g.Relists g') (record : Value) : g'.value record = g.value record := by
  funext id
  rw [Graph.value, Graph.value, h.unfolding?]

theorem hasPassLimit_iff (h : g.Relists g') (V : String → Value) (loop : String) :
    HasPassLimit g' V loop ↔ HasPassLimit g V loop := by
  rw [HasPassLimit, HasPassLimit, h.inputEdge?]

theorem passLimit (h : g.Relists g') (V : String → Value) (cap : Int) (loop : String) :
    passLimit g' V cap loop = passLimit g V cap loop := by
  rw [Preview.passLimit, Preview.passLimit, h.inputEdge?]

theorem reachesRoots (h : g.Relists g') (V : String → Value) (cap : Int) (loop : String) :
    reachesRoots g' V cap loop = reachesRoots g V cap loop := by
  simp only [Preview.reachesRoots, h.passLimit, h.inputEdge?]

theorem left (h : g.Relists g') (V : String → Value) (cap : Int) (loop root : String) :
    left g' V cap loop root = left g V cap loop root := by
  rw [Preview.left, Preview.left, h.reachesRoots]

/-- The loops of roots have their limits in both listings. -/
theorem hasPassLimits_iff (h : g.Relists g') (record : Value) :
    (∀ root ∈ g'.roots, ∀ loop ∈ g'.loopOf? root.node, HasPassLimit g' (g'.value record) loop) ↔
      ∀ root ∈ g.roots, ∀ loop ∈ g.loopOf? root.node, HasPassLimit g (g.value record) loop := by
  have hnames (P : String → Prop) :
      (∀ root ∈ g'.roots, P root.node) ↔ ∀ root ∈ g.roots, P root.node := by
    have hmap (g : Graph) : (∀ root ∈ g.roots, P root.node) ↔ ∀ id ∈ g.roots.map (·.node), P id :=
      List.forall_mem_map.symm
    rw [hmap, hmap]
    exact forall_congr' fun id => imp_congr_left h.mem_roots_iff
  simp only [h.loopOf?, h.value, h.hasPassLimit_iff]
  exact hnames fun id => ∀ loop ∈ g.loopOf? id, HasPassLimit g (g.value record) loop

end Graph.Relists

namespace Preview

variable {g g' : Graph}

theorem lookup_leftInRoots_relisted (h : g.Relists g') (V : String → Value) (cap : Int)
    (id : String) :
    (leftInRoots g' V cap g'.roots).lookup id = (leftInRoots g V cap g.roots).lookup id := by
  simp only [lookup_leftInRoots, h.mem_roots_iff, h.loopOf?, h.left]

/-- **The listing of the nodes makes no difference to evaluation.**  If two graphs have the same
nodes in different orders, each with a name of its own, and the same edges, then for every record
evaluation either gives both the same values, to all nodes and roots governed by loops among them,
or ends with the same fault for both. -/
theorem evaluate_relisted (hids : g.ids.Nodup) (hnodes : g'.nodes.Perm g.nodes)
    (hedges : g'.edges = g.edges) (record : Value) (cap : Int) :
    (∃ fault, evaluate g record cap = .error fault ∧ evaluate g' record cap = .error fault) ∨
    ∃ values values', evaluate g record cap = .ok values ∧ evaluate g' record cap = .ok values' ∧
      values'.Perm values ∧
      ∀ id ∈ g.ids, ∃ v, values.lookup id = some v ∧ values'.lookup id = some v := by
  have h : g.Relists g' := ⟨hids, hnodes, hedges⟩
  by_cases limit : ∀ root ∈ g.roots, ∀ loop ∈ g.loopOf? root.node,
      HasPassLimit g (g.value record) loop
  · refine .inr ⟨_, _, evaluate_eq limit, evaluate_eq ((h.hasPassLimits_iff record).2 limit), ?_,
      fun id hid => ⟨_, List.lookup_graph _ (Graph.mem_distinctIds.2 hid), ?_⟩⟩
    · simp only [lookup_leftInRoots_relisted h, h.value]
      refine List.Perm.map _ ((List.perm_ext_iff_of_nodup (nodup_eraseDups _)
        (nodup_eraseDups _)).2 fun id => ?_)
      rw [List.mem_eraseDups, List.mem_eraseDups, h.ids.mem_iff]
    · rw [List.lookup_graph _ (Graph.mem_distinctIds.2 (h.ids.mem_iff.2 hid)),
        lookup_leftInRoots_relisted h, h.value]
  · have fault (g : Graph) (limit : ¬ ∀ root ∈ g.roots, ∀ loop ∈ g.loopOf? root.node,
        HasPassLimit g (g.value record) loop) : evaluate g record cap = .error .tooLarge :=
      evaluate_eq_error (by simpa only [not_forall, exists_prop] using limit)
    exact .inl ⟨_, fault g limit, fault g' fun h' => limit ((h.hasPassLimits_iff record).1 h')⟩

/-- The pump with its nodes listed the other way round. -/
def pumpReversed : Graph := { pump with nodes := pump.nodes.reverse }

theorem evaluate_relisted_pump :
    pump.ids.Nodup ∧ pumpReversed.nodes.Perm pump.nodes ∧ pumpReversed.edges = pump.edges ∧
    ∃ values, evaluate pumpReversed .null 10 = .ok values ∧
      values.lookup "total" = some (.int 6) ∧ values.lookup "self" = some .null := by
  have hids : pump.ids.Nodup := by decide
  have hnodes : pumpReversed.nodes.Perm pump.nodes := List.reverse_perm _
  obtain ⟨values, run, htotal, hself⟩ : ∃ values, evaluate pump .null 10 = .ok values ∧
      values.lookup "total" = some (.int 6) ∧ values.lookup "self" = some .null :=
    ⟨_, rfl, by decide, by decide⟩
  refine ⟨hids, hnodes, rfl, ?_⟩
  rcases evaluate_relisted hids hnodes rfl .null 10 with ⟨fault, hfault, -⟩ | ⟨_, values', hvalues,
    run', -, hsame⟩
  · rw [run] at hfault
    cases hfault
  · rw [run] at hvalues
    obtain rfl := Except.ok.inj hvalues
    obtain ⟨v, hv, hv'⟩ := hsame "total" (by decide)
    obtain ⟨w, hw, hw'⟩ := hsame "self" (by decide)
    exact ⟨values', run', by rw [hv', ← hv, htotal], by rw [hw', ← hw, hself]⟩

end Preview

end NodeFlow
