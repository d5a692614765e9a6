import NodeFlow.Proofs.Digraph.Order

/-!
# What is canonical about the canonical order

An *arrangement* puts the components of a graph one after the other so that no arrow leads from a
later one into an earlier one.  The components are the same in all of them (`perm_components`).
Of two arrangements the one comes first, lexicographically, in which the components begin with
vertices of lower rank.  The canonical order is the first of all (`order_least`): components are
looked through in the order of their first vertices (`components_pairwise`), and whatever another
arrangement begins with is ready too (`isReady_head`).

The order depends on nothing but the vertices and which of them are joined (`order_congr`).
-/

open Relation

namespace NodeFlow

/-! ### Arrangements -/

/-- The least rank in a component. -/
def leading {α : Type} (rank : α → Nat) (c : List α) : Nat := (c.map rank).min?.getD 0

/-- Lists that hold the strongly connected components of a relation on some vertices, each component
once and in the order of ranks, such that nothing leads from a later one into an earlier one. -/
structure IsArrangement {α : Type} (vertex : α → Prop) (joins : α → α → Prop) (rank : α → Nat)
    (cs : List (List α)) : Prop where
  component : ∀ c ∈ cs, ∃ v, vertex v ∧
    ∀ w, w ∈ c ↔ ReflTransGen joins v w ∧ ReflTransGen joins w v
  complete : ∀ v, vertex v → ∃ c ∈ cs, v ∈ c
  nodup : cs.flatten.Nodup
  listed : ∀ c ∈ cs, c.Pairwise fun v w => rank v < rank w
  forward : cs.Pairwise fun c c' => ∀ v ∈ c, ∀ u ∈ c', ¬ joins u v

section Leading

variable {α : Type} {rank : α → Nat} {v : α} {c : List α}

theorem leading_le (h : v ∈ c) : leading rank c ≤ rank v :=
  List.min?_getD_le_of_mem (List.mem_map_of_mem h)

theorem leading_eq (h : v ∈ c) (least : ∀ w ∈ c, rank v ≤ rank w) :
    leading rank c = rank v := by
  have hmin : (c.map rank).min? = some (rank v) :=
    List.min?_eq_some_iff.2 ⟨List.mem_map_of_mem h, List.forall_mem_map.2 least⟩
  rw [leading, hmin]
  rfl

end Leading

namespace Digraph

variable {α : Type} [DecidableEq α] {d d' : Digraph α} {rank : α → Nat} {v w : α}
  {c c' : List α} {pending cs : List (List α)} {steps : Nat}

/-! ### The components in order -/

omit [DecidableEq α] in
theorem Mutual.mem_vertices (hclosed : d.Closed) (hv : v ∈ d.vertices) (h : d.Mutual v w) :
    w ∈ d.vertices := by
  rcases ReflTransGen.cases_tail h.1 with rfl | ⟨u, -, harrow⟩
  · exact hv
  · exact (hclosed u w harrow).2

theorem mem_component_of_mem (hclosed : d.Closed) (hv : v ∈ d.vertices) :
    w ∈ d.component v ↔ d.Mutual v w := by
  rw [mem_component_iff hclosed]
  exact ⟨And.right, fun h => ⟨h.mem_vertices hclosed hv, h⟩⟩

theorem components_pairwise (hclosed : d.Closed)
    (hrank : d.vertices.Pairwise fun v w => rank v < rank w) :
    d.components.Pairwise fun c c' => leading rank c < leading rank c' := by
  rw [components_eq]
  refine pairwise_eraseDups fun before c' after hsplit hnew c hc => ?_
  obtain ⟨vs, ws, hvertices, rfl, hrest⟩ := List.map_eq_append_iff.1 hsplit
  obtain ⟨w, ws, rfl, rfl, -⟩ := List.map_eq_cons_iff.1 hrest
  obtain ⟨v, hv, rfl⟩ := List.mem_map.1 hc
  rw [hvertices] at hrank
  obtain ⟨-, hlater, hbetween⟩ := List.pairwise_append.1 hrank
  have hvd : v ∈ d.vertices := hvertices ▸ List.mem_append_left _ hv
  have hwd : w ∈ d.vertices := hvertices ▸ List.mem_append_right _ List.mem_cons_self
  have hself {u : α} (hu : u ∈ d.vertices) : u ∈ d.component u :=
    (mem_component_of_mem hclosed hu).2 (.refl u)
  -- none of the component of `w` is among the vertices before `w`
  have hfirst : ∀ u ∈ d.component w, rank w ≤ rank u := by
    intro u hu
    obtain ⟨hud, hmutual⟩ := (mem_component_iff hclosed).1 hu
    rw [hvertices] at hud
    rcases List.mem_append.1 hud with hud | hud
    · exact absurd (List.mem_map.2 ⟨u, hud, (component_eq hclosed hmutual).symm⟩) hnew
    · rcases List.mem_cons.1 hud with rfl | hud
      · exact Nat.le_refl _
      · exact Nat.le_of_lt ((List.pairwise_cons.1 hlater).1 u hud)
  calc leading rank (d.component v) ≤ rank v := leading_le (hself hvd)
    _ < rank w := hbetween v hv w List.mem_cons_self
    _ = leading rank (d.component w) := (leading_eq (hself hwd) hfirst).symm

/-! ### All arrangements have the same components -/

/-- The canonical arrangement of the components. -/
theorem isArrangement_arrange (hclosed : d.Closed)
    (hrank : d.vertices.Pairwise fun v w => rank v < rank w) :
    IsArrangement (· ∈ d.vertices) d.Arrow rank (d.arrange d.components.length d.components) where
  component c hc := by
    obtain ⟨v, hv, rfl⟩ := mem_components_iff.1 ((arrange_perm _ _).mem_iff.1 hc)
    exact ⟨v, hv, fun w => mem_component_of_mem hclosed hv⟩
  complete v hv := by
    have hmem := (mem_order_iff hclosed).2 hv
    exact List.mem_flatten.1 hmem
  nodup := order_nodup hclosed (hrank.imp fun {v w} hlt heq => by
    subst heq
    exact absurd hlt (Nat.lt_irrefl _))
  listed c hc := by
    obtain ⟨v, -, rfl⟩ := mem_components_iff.1 ((arrange_perm _ _).mem_iff.1 hc)
    exact hrank.filter _
  forward := arrange_pairwise hclosed (List.Subset.refl _) (components_disjoint hclosed)
    (Nat.le_refl _)

/-- A list that holds a component in the order of ranks is that component. -/
theorem eq_component (hclosed : d.Closed)
    (hrank : d.vertices.Pairwise fun v w => rank v < rank w) (hv : v ∈ d.vertices)
    (hc : ∀ w, w ∈ c ↔ d.Mutual v w) (hlisted : c.Pairwise fun v w => rank v < rank w) :
    c = d.component v := by
  have hnodup {l : List α} (h : l.Pairwise fun v w => rank v < rank w) : l.Nodup :=
    h.imp fun hlt heq => absurd (heq ▸ hlt) (Nat.lt_irrefl _)
  have hlisted' : (d.component v).Pairwise fun v w => rank v < rank w := hrank.filter _
  have hperm : c.Perm (d.component v) := by
    rw [List.perm_ext_iff_of_nodup (hnodup hlisted) (hnodup hlisted')]
    intro w
    rw [hc, mem_component_of_mem hclosed hv]
  exact hperm.eq_of_pairwise (fun v w _ _ hvw hwv => absurd hvw (Nat.lt_asymm hwv)) hlisted
    hlisted'

theorem perm_components (hclosed : d.Closed)
    (hrank : d.vertices.Pairwise fun v w => rank v < rank w)
    (h : IsArrangement (· ∈ d.vertices) d.Arrow rank cs) : cs.Perm d.components := by
  have hnodup : cs.Nodup := by
    refine (List.nodup_flatten.1 h.nodup).2.imp_of_mem fun {c c'} hc _ hdisjoint heq => ?_
    obtain ⟨v, -, hv⟩ := h.component c hc
    have hmem : v ∈ c := (hv v).2 ⟨.refl, .refl⟩
    exact hdisjoint hmem (heq ▸ hmem)
  rw [List.perm_ext_iff_of_nodup hnodup components_nodup]
  intro c
  constructor
  · intro hc
    obtain ⟨v, hv, hmem⟩ := h.component c hc
    rw [eq_component hclosed hrank hv hmem (h.listed c hc)]
    exact mem_components_iff.2 ⟨v, hv, rfl⟩
  · intro hc
    obtain ⟨v, hv, rfl⟩ := mem_components_iff.1 hc
    obtain ⟨c, hc, hvc⟩ := h.complete v hv
    obtain ⟨u, hu, hmem⟩ := h.component c hc
    rwa [← component_eq hclosed ((hmem v).1 hvc), ← eq_component hclosed hrank hu hmem
      (h.listed c hc)]

/-! ### The first arrangement -/

theorem isReady_head (hperm : (c :: cs).Perm pending)
    (hforward : (c :: cs).Pairwise fun c c' => ∀ v ∈ c, ∀ u ∈ c', ¬ d.Arrow u v) :
    d.isReady pending.flatten c = true := by
  rw [isReady_iff]
  intro u v harrow hv hu
  obtain ⟨c', hc', huc⟩ := List.mem_flatten.1 hu
  rcases List.mem_cons.1 (hperm.mem_iff.2 hc') with rfl | hlater
  · exact huc
  · exact absurd harrow ((List.pairwise_cons.1 hforward).1 c' hlater v hv u huc)

/-- Any other arrangement of pending components comes later than the one that takes the first ready
component each time. -/
theorem arrange_least (hsorted : pending.Pairwise fun c c' => leading rank c < leading rank c')
    (hsteps : pending.length ≤ steps) (hperm : cs.Perm pending)
    (hforward : cs.Pairwise fun c c' => ∀ v ∈ c, ∀ u ∈ c', ¬ d.Arrow u v) :
    cs = d.arrange steps pending ∨
      (d.arrange steps pending).map (leading rank) < cs.map (leading rank) := by
  induction steps generalizing pending cs with
  | zero =>
    obtain rfl := List.length_eq_zero_iff.1 (Nat.le_zero.1 hsteps)
    exact .inl hperm.eq_nil
  | succ steps ih =>
    cases cs with
    | nil =>
      obtain rfl := hperm.symm.eq_nil
      exact .inl rfl
    | cons c' rest =>
      have hmem : c' ∈ pending := hperm.mem_iff.1 List.mem_cons_self
      have hready := isReady_head hperm hforward
      rw [arrange]
      split
      · next hnone => exact absurd hready (List.find?_eq_none.1 hnone c' hmem)
      · next c hfind =>
        obtain ⟨-, before, after, hsplit, hbefore⟩ := List.find?_eq_some_iff_append.1 hfind
        have hplace : c' = c ∨ c' ∈ after := by
          rw [hsplit] at hmem
          rcases List.mem_append.1 hmem with hmem | hmem
          · have hnot := hbefore c' hmem
            rw [hready] at hnot
            cases hnot
          · exact List.mem_cons.1 hmem
        rcases hplace with rfl | hafter
        · obtain ⟨-, hrest⟩ := List.cons_perm_iff_perm_erase.1 hperm
          have hlength := List.length_erase_of_mem hmem
          rcases ih (hsorted.sublist List.erase_sublist) (by omega) hrest
            (List.pairwise_cons.1 hforward).2 with heq | hlt
          · exact .inl (by rw [← heq])
          · exact .inr (List.cons_lt_cons_iff.2 (.inr ⟨rfl, hlt⟩))
        · rw [hsplit] at hsorted
          obtain ⟨-, hsorted, -⟩ := List.pairwise_append.1 hsorted
          have hlt := (List.pairwise_cons.1 hsorted).1 c' hafter
          exact .inr (List.cons_lt_cons_iff.2 (.inl hlt))

/-- The canonical order is that of the first arrangement. -/
theorem order_least (hclosed : d.Closed)
    (hrank : d.vertices.Pairwise fun v w => rank v < rank w) :
    ∃ cs, IsArrangement (· ∈ d.vertices) d.Arrow rank cs ∧ d.order = cs.flatten ∧
      ∀ cs', IsArrangement (· ∈ d.vertices) d.Arrow rank cs' →
        cs' = cs ∨ cs.map (leading rank) < cs'.map (leading rank) :=
  ⟨_, isArrangement_arrange hclosed hrank, rfl, fun _ h =>
    arrange_least (components_pairwise hclosed hrank) (Nat.le_refl _)
      (perm_components hclosed hrank h) h.forward⟩

/-! ### What the order depends on -/

theorem arrange_congr (harrow : d.Arrow = d'.Arrow) (steps : Nat) (pending : List (List α)) :
    d.arrange steps pending = d'.arrange steps pending := by
  induction steps generalizing pending with
  | zero => rfl
  | succ steps ih =>
    have hready : d.isReady pending.flatten = d'.isReady pending.flatten := by
      funext c
      rw [Bool.eq_iff_iff, isReady_iff, isReady_iff, harrow]
    rw [arrange, arrange, hready]
    split
    · rfl
    · rw [ih]

theorem order_congr (hclosed : d.Closed) (hvertices : d.vertices = d'.vertices)
    (harrow : d.Arrow = d'.Arrow) : d.order = d'.order := by
  have hclosed' : d'.Closed := by
    rw [Closed, ← harrow, ← hvertices]
    exact hclosed
  have hcomponent : d.component = d'.component := by
    funext v
    rw [component, component, hvertices]
    refine List.filter_congr fun w _ => Bool.eq_iff_iff.2 ?_
    simp only [Bool.and_eq_true, List.contains_iff_mem, mem_reach_iff hclosed,
      mem_reach_iff hclosed', harrow]
  have hcomponents : d.components = d'.components := by
    rw [components_eq, components_eq, hvertices, hcomponent]
  rw [order, order, hcomponents, arrange_congr harrow]

end Digraph

end NodeFlow
