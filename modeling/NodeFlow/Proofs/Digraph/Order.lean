import Mathlib.Data.Finset.Max
import Mathlib.Data.List.Nodup
import NodeFlow.Proofs.Digraph.Reach

/-!
# The canonical order

The components are the classes of vertices that reach each other (`mem_component_iff`), so they are
disjoint.  A component into which no arrow leads from a pending vertex outside it is always there,
as the vertex with the fewest vertices that reach it lies in one (`exists_ready`).  So the order
lists each vertex once (`order_nodup`), and no path leads backwards in it but within a component
(`order_pairwise_reaches`).
-/

open Relation

namespace NodeFlow

/-- Where repetitions are dropped, the items that are left come in the order of their first places:
a relation between an item and all items before its first place holds along the list. -/
theorem pairwise_eraseDups {α : Type} [BEq α] [LawfulBEq α] {R : α → α → Prop} {l : List α}
    (h : ∀ before b after, l = before ++ b :: after → b ∉ before → ∀ a ∈ before, R a b) :
    l.eraseDups.Pairwise R := by
  induction l using List.reverseRecOn with
  | nil => exact .nil
  | append_singleton l b ih =>
    have hl : l.eraseDups.Pairwise R := by
      refine ih fun before c after hsplit => h before c (after ++ [b]) ?_
      rw [hsplit, List.append_assoc, List.cons_append]
    rw [List.eraseDups_append]
    by_cases hb : b ∈ l
    · simpa [List.removeAll, hb] using hl
    · have hlast : ([b].removeAll l).eraseDups = [b] := by
        simp [List.removeAll, hb, List.eraseDups_cons]
      rw [hlast, List.pairwise_append]
      refine ⟨hl, List.pairwise_singleton R b, fun a ha c hc => ?_⟩
      obtain rfl := List.mem_singleton.1 hc
      exact h l c [] rfl hb a (List.mem_eraseDups.1 ha)

/-- What holds between an item of a list and each one behind it holds along the list. -/
theorem pairwise_of_splits {α : Type} {R : α → α → Prop} {l : List α}
    (h : ∀ before a after, l = before ++ a :: after → ∀ b ∈ after, R a b) : l.Pairwise R := by
  induction l with
  | nil => exact .nil
  | cons a rest ih =>
    refine List.pairwise_cons.2 ⟨h [] a rest rfl, ih fun before b after hsplit => ?_⟩
    exact h (a :: before) b after (by rw [hsplit, List.cons_append])

theorem nodup_eraseDups {α : Type} [BEq α] [LawfulBEq α] (l : List α) : l.eraseDups.Nodup :=
  pairwise_eraseDups fun _ _ _ _ hb _ ha => ne_of_mem_of_not_mem ha hb

namespace Digraph

variable {α : Type} [DecidableEq α] (d : Digraph α)

/-- Each of two vertices reaches the other. -/
def Mutual (v w : α) : Prop := ReflTransGen d.Arrow v w ∧ ReflTransGen d.Arrow w v

/-- The component of a vertex. -/
def component (v : α) : List α :=
  d.vertices.filter fun w => (d.reach v).contains w && (d.reach w).contains v

variable {d} {u v w : α} {c : List α} {pending : List (List α)} {steps : Nat}

omit [DecidableEq α] in
theorem Mutual.refl (v : α) : d.Mutual v v := ⟨.refl, .refl⟩

omit [DecidableEq α] in
theorem Mutual.symm (h : d.Mutual v w) : d.Mutual w v := ⟨h.2, h.1⟩

omit [DecidableEq α] in
theorem Mutual.trans (h : d.Mutual u v) (h' : d.Mutual v w) : d.Mutual u w :=
  ⟨h.1.trans h'.1, h'.2.trans h.2⟩

/-! ### Components -/

theorem mem_component_iff (hclosed : d.Closed) :
    w ∈ d.component v ↔ w ∈ d.vertices ∧ d.Mutual v w := by
  simp [component, Mutual, mem_reach_iff hclosed]

theorem component_eq (hclosed : d.Closed) (h : d.Mutual v w) : d.component v = d.component w := by
  refine List.filter_congr fun u _ => Bool.eq_iff_iff.2 ?_
  simp only [Bool.and_eq_true, List.contains_iff_mem, mem_reach_iff hclosed]
  exact ⟨h.symm.trans, h.trans⟩

theorem components_eq : d.components = (d.vertices.map d.component).eraseDups := by
  have hclass (v : α) : ((d.vertices.map fun v => (v, d.reach v)).filter fun p =>
      (d.reach v).contains p.1 && p.2.contains v).map (·.1) = d.component v := by
    rw [List.filter_map, List.map_map]
    exact List.map_id _
  rw [components]
  congr 1
  rw [List.map_map]
  exact List.map_congr_left fun v _ => hclass v

theorem mem_components_iff : c ∈ d.components ↔ ∃ v ∈ d.vertices, d.component v = c := by
  rw [components_eq, List.mem_eraseDups, List.mem_map]

theorem nodup_of_mem_components (hnodup : d.vertices.Nodup) (h : c ∈ d.components) : c.Nodup := by
  obtain ⟨v, -, rfl⟩ := mem_components_iff.1 h
  exact hnodup.filter _

theorem components_nodup : d.components.Nodup := by
  rw [components_eq]
  exact nodup_eraseDups _

theorem components_disjoint (hclosed : d.Closed) : d.components.Pairwise List.Disjoint := by
  refine components_nodup.pairwise_of_forall_ne fun c hc c' hc' hne x hx hx' => hne ?_
  obtain ⟨v, -, rfl⟩ := mem_components_iff.1 hc
  obtain ⟨w, -, rfl⟩ := mem_components_iff.1 hc'
  have hv := ((mem_component_iff hclosed).1 hx).2
  have hw := ((mem_component_iff hclosed).1 hx').2
  exact component_eq hclosed (hv.trans hw.symm)

theorem mem_flatten_components (hclosed : d.Closed) :
    v ∈ d.components.flatten ↔ v ∈ d.vertices := by
  rw [List.mem_flatten]
  constructor
  · rintro ⟨c, hc, hv⟩
    obtain ⟨w, -, rfl⟩ := mem_components_iff.1 hc
    exact ((mem_component_iff hclosed).1 hv).1
  · intro hv
    refine ⟨d.component v, mem_components_iff.2 ⟨v, hv, rfl⟩, ?_⟩
    exact (mem_component_iff hclosed).2 ⟨hv, .refl v⟩

/-! ### Arranging components -/

theorem arrange_perm (steps : Nat) (pending : List (List α)) :
    (d.arrange steps pending).Perm pending := by
  induction steps generalizing pending with
  | zero => exact .refl pending
  | succ steps ih =>
    rw [arrange]
    split
    · exact .refl pending
    · next c hc =>
      have hmem : c ∈ pending := List.mem_of_find?_eq_some hc
      exact ((ih (pending.erase c)).cons c).trans (List.perm_cons_erase hmem).symm

/-- No arrow leads into a ready component from a pending vertex outside it. -/
theorem isReady_iff {vertices : List α} : d.isReady vertices c = true ↔
    ∀ u v, d.Arrow u v → v ∈ c → u ∈ vertices → u ∈ c := by
  rw [isReady, List.all_eq_true, Prod.forall]
  refine forall_congr' fun u => forall_congr' fun v => imp_congr_right fun _ => ?_
  by_cases hv : v ∈ c <;> by_cases hu : u ∈ vertices <;> simp [hv, hu]

/-- The number of vertices that reach a vertex. -/
def ancestors (d : Digraph α) (v : α) : Nat := d.vertices.countP fun w => (d.reach w).contains v

theorem ancestors_lt (hclosed : d.Closed) (hv : v ∈ d.vertices) (huv : ReflTransGen d.Arrow u v)
    (hvu : ¬ ReflTransGen d.Arrow v u) : d.ancestors u < d.ancestors v := by
  have hmono : ∀ w, (d.reach w).contains u = true → (d.reach w).contains v = true := by
    simp only [List.contains_iff_mem, mem_reach_iff hclosed]
    exact fun w hw => hw.trans huv
  have hsplit : d.ancestors u = (d.vertices.filter fun w => (d.reach w).contains v).countP
      fun w => (d.reach w).contains u := by
    rw [List.countP_filter]
    refine List.countP_congr fun w _ => ?_
    simp only [Bool.and_eq_true]
    exact ⟨fun h => ⟨h, hmono w h⟩, And.left⟩
  rw [hsplit, ancestors, List.countP_eq_length_filter, List.countP_eq_length_filter,
    List.length_filter_lt_length_iff_exists]
  refine ⟨v, List.mem_filter.2 ⟨hv, List.contains_iff_mem.2 mem_reach_self⟩, ?_⟩
  rwa [List.contains_iff_mem, mem_reach_iff hclosed]

/-- Of some components one is ready. -/
theorem exists_ready (hclosed : d.Closed) (hpending : pending ⊆ d.components)
    (hne : pending ≠ []) : ∃ c ∈ pending, d.isReady pending.flatten c = true := by
  have hvertex : ∀ v ∈ pending.flatten, v ∈ d.vertices := by
    intro v hv
    obtain ⟨c, hc, hvc⟩ := List.mem_flatten.1 hv
    exact (mem_flatten_components hclosed).1 (List.mem_flatten.2 ⟨c, hpending hc, hvc⟩)
  obtain ⟨v, hv, hleast⟩ : ∃ v ∈ pending.flatten, ∀ u ∈ pending.flatten,
      d.ancestors v ≤ d.ancestors u := by
    obtain ⟨c, hc⟩ := List.exists_mem_of_ne_nil pending hne
    obtain ⟨w, hw, rfl⟩ := mem_components_iff.1 (hpending hc)
    have hmem : w ∈ pending.flatten :=
      List.mem_flatten.2 ⟨_, hc, (mem_component_iff hclosed).2 ⟨hw, .refl w⟩⟩
    obtain ⟨v, hv, hleast⟩ := pending.flatten.toFinset.exists_min_image d.ancestors
      ⟨w, List.mem_toFinset.2 hmem⟩
    exact ⟨v, List.mem_toFinset.1 hv, fun u hu => hleast u (List.mem_toFinset.2 hu)⟩
  obtain ⟨c, hc, hvc⟩ := List.mem_flatten.1 hv
  obtain ⟨w, -, rfl⟩ := mem_components_iff.1 (hpending hc)
  refine ⟨d.component w, hc, isReady_iff.2 fun u t harrow ht hu => ?_⟩
  have hwv := ((mem_component_iff hclosed).1 hvc).2
  have hwt := ((mem_component_iff hclosed).1 ht).2
  have huv : ReflTransGen d.Arrow u v := .head harrow (hwt.2.trans hwv.1)
  -- otherwise fewer vertices would reach `u` than `v`
  have hvu : ReflTransGen d.Arrow v u := by
    by_contra hvu
    have hlt := ancestors_lt hclosed (hvertex v hv) huv hvu
    exact absurd (hleast u hu) (Nat.not_le.2 hlt)
  exact (mem_component_iff hclosed).2 ⟨hvertex u hu, hwv.1.trans hvu, huv.trans hwv.2⟩

/-- In an arrangement no arrow leads from a later component into an earlier one. -/
theorem arrange_pairwise (hclosed : d.Closed) (hpending : pending ⊆ d.components)
    (hdisjoint : pending.Pairwise List.Disjoint) (hsteps : pending.length ≤ steps) :
    (d.arrange steps pending).Pairwise fun c c' => ∀ v ∈ c, ∀ u ∈ c', ¬ d.Arrow u v := by
  induction steps generalizing pending with
  | zero =>
    obtain rfl := List.length_eq_zero_iff.1 (Nat.le_zero.1 hsteps)
    exact .nil
  | succ steps ih =>
    rw [arrange]
    split
    · next hnone =>
      by_cases hne : pending = []
      · rw [hne]
        exact .nil
      · obtain ⟨c, hc, hready⟩ := exists_ready hclosed hpending hne
        exact absurd hready (List.find?_eq_none.1 hnone c hc)
    · next c hfind =>
      have hc : c ∈ pending := List.mem_of_find?_eq_some hfind
      have hready : d.isReady pending.flatten c = true := List.find?_some hfind
      have hlength := List.length_erase_of_mem hc
      have hpos := List.length_pos_of_mem hc
      have hfirst : (c :: pending.erase c).Pairwise List.Disjoint :=
        hdisjoint.perm (List.perm_cons_erase hc) fun h => h.symm
      obtain ⟨hrest, herased⟩ := List.pairwise_cons.1 hfirst
      refine List.pairwise_cons.2 ⟨fun c' hc' v hv u hu harrow => ?_, ?_⟩
      · have hc' : c' ∈ pending.erase c := (arrange_perm steps _).mem_iff.1 hc'
        have hpendingU : u ∈ pending.flatten :=
          List.mem_flatten.2 ⟨c', List.mem_of_mem_erase hc', hu⟩
        exact hrest c' hc' (isReady_iff.1 hready u v harrow hv hpendingU) hu
      · refine ih (fun c' hc' => hpending (List.mem_of_mem_erase hc')) herased ?_
        omega

/-! ### The order -/

theorem order_perm : d.order.Perm d.components.flatten := (arrange_perm _ _).flatten

theorem mem_order_iff (hclosed : d.Closed) : v ∈ d.order ↔ v ∈ d.vertices := by
  rw [order_perm.mem_iff, mem_flatten_components hclosed]

theorem order_nodup (hclosed : d.Closed) (hnodup : d.vertices.Nodup) : d.order.Nodup := by
  rw [order_perm.nodup_iff, List.nodup_flatten]
  exact ⟨fun c hc => nodup_of_mem_components hnodup hc, components_disjoint hclosed⟩

omit [DecidableEq α] in
theorem closed_of_reaches {s : List α} (hs : ∀ u v, d.Arrow u v → u ∈ s → v ∈ s)
    (hu : u ∈ s) (huv : ReflTransGen d.Arrow u v) : v ∈ s := by
  induction huv with
  | refl => exact hu
  | tail _ harrow ih => exact hs _ _ harrow ih

/-- In an arrangement no path leads from a later component into an earlier one. -/
theorem arrange_pairwise_reaches (hclosed : d.Closed) :
    (d.arrange d.components.length d.components).Pairwise fun c c' =>
      ∀ v ∈ c, ∀ u ∈ c', ¬ ReflTransGen d.Arrow u v := by
  have hperm := arrange_perm (d := d) d.components.length d.components
  have harrows := arrange_pairwise hclosed (List.Subset.refl _) (components_disjoint hclosed)
    (Nat.le_refl _)
  have hdisjoint : (d.arrange d.components.length d.components).Pairwise List.Disjoint :=
    (components_disjoint hclosed).perm hperm.symm fun h => h.symm
  refine pairwise_of_splits fun before c after hsplit c' hc' v hv u hu huv => ?_
  rw [hsplit, List.pairwise_append, List.pairwise_cons] at harrows hdisjoint
  -- what comes later is never left, as no arrow leads into what comes before it
  have hlater : ∀ s t, d.Arrow s t → s ∈ after.flatten → t ∈ after.flatten := by
    intro s t harrow hs
    obtain ⟨b, hb, hsb⟩ := List.mem_flatten.1 hs
    have ht : t ∈ (before ++ c :: after).flatten := by
      rw [← hsplit, hperm.flatten.mem_iff, mem_flatten_components hclosed]
      exact (hclosed s t harrow).2
    obtain ⟨b', hb', htb'⟩ := List.mem_flatten.1 ht
    rcases List.mem_append.1 hb' with hbefore | hb'
    · exact absurd harrow (harrows.2.2 b' hbefore b (List.mem_cons_of_mem c hb) t htb' s hsb)
    · rcases List.mem_cons.1 hb' with rfl | hafter
      · exact absurd harrow (harrows.2.1.1 b hb t htb' s hsb)
      · exact List.mem_flatten.2 ⟨b', hafter, htb'⟩
  have hv' := closed_of_reaches hlater (List.mem_flatten.2 ⟨c', hc', hu⟩) huv
  obtain ⟨b, hb, hvb⟩ := List.mem_flatten.1 hv'
  exact hdisjoint.2.1.1 b hb hv hvb

/-- A path that leads backwards in the order stays in a component. -/
theorem order_pairwise_reaches (hclosed : d.Closed) :
    d.order.Pairwise fun v u => ReflTransGen d.Arrow u v → d.Mutual u v := by
  rw [order, List.pairwise_flatten]
  constructor
  · intro c hc
    obtain ⟨w, -, rfl⟩ := mem_components_iff.1 ((arrange_perm _ _).mem_iff.1 hc)
    refine List.pairwise_iff_forall_sublist.2 fun {v u} hsub _ => ?_
    have hv := hsub.subset List.mem_cons_self
    have hu := hsub.subset (List.mem_cons_of_mem v (List.mem_singleton_self u))
    exact ((mem_component_iff hclosed).1 hu).2.symm.trans ((mem_component_iff hclosed).1 hv).2
  · exact (arrange_pairwise_reaches hclosed).imp fun h v hv u hu huv => absurd huv (h v hv u hu)

end Digraph

end NodeFlow
