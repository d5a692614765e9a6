import Mathlib.Data.List.Basic
import Mathlib.Logic.Relation
import NodeFlow.Digraph

/-!
# Reachability in directed graphs

Following the arrows in rounds finds what can be reached and nothing else (`mem_reachFrom_iff`): all
that is found is reached by arrows (`spread_induction`), and as every round but the last finds a new
vertex, there are rounds enough for no arrow to lead out of what is found (`spread_closed`).
-/

open Relation

namespace NodeFlow.Digraph

variable {α : Type} [DecidableEq α] (d : Digraph α)

/-- An arrow leads from `v` to `w`. -/
def Arrow (v w : α) : Prop := (v, w) ∈ d.arrows

/-- All arrows lead from vertices to vertices. -/
def Closed : Prop := ∀ v w, d.Arrow v w → v ∈ d.vertices ∧ w ∈ d.vertices

variable {d} {v w : α} {seen newest starts : List α} {rounds : Nat}

theorem mem_next : w ∈ d.next v ↔ d.Arrow v w := by
  simp [next, Arrow]

/-! ### Rounds -/

/-- The vertices that one more round finds. -/
def fresh (d : Digraph α) (seen newest : List α) : List α :=
  ((newest.flatMap d.next).filter (· ∉ seen)).eraseDups

theorem mem_fresh : w ∈ d.fresh seen newest ↔ (∃ v ∈ newest, d.Arrow v w) ∧ w ∉ seen := by
  rw [fresh, List.mem_eraseDups, List.mem_filter, List.mem_flatMap]
  simp [mem_next]

theorem spread_succ :
    d.spread (rounds + 1) seen newest =
      if d.fresh seen newest = [] then seen
      else d.spread rounds (seen ++ d.fresh seen newest) (d.fresh seen newest) := by
  rw [spread, fresh]
  split
  · next h => rw [if_pos h]
  · next h => rw [if_neg h]

theorem subset_spread (rounds : Nat) (seen newest : List α) :
    seen ⊆ d.spread rounds seen newest := by
  induction rounds generalizing seen newest with
  | zero => exact List.Subset.refl seen
  | succ rounds ih =>
    rw [spread_succ]
    split
    · exact List.Subset.refl seen
    · exact List.Subset.trans (List.subset_append_left seen _) (ih _ _)

/-- What holds of the vertices seen, and is passed on by arrows, holds of all that are found. -/
theorem spread_induction {P : α → Prop} (step : ∀ v w, P v → d.Arrow v w → P w)
    (hseen : ∀ v ∈ seen, P v) (hnewest : ∀ v ∈ newest, P v) :
    ∀ v ∈ d.spread rounds seen newest, P v := by
  induction rounds generalizing seen newest with
  | zero => exact hseen
  | succ rounds ih =>
    rw [spread_succ]
    split
    · exact hseen
    · have hfresh : ∀ w ∈ d.fresh seen newest, P w := by
        intro w hw
        obtain ⟨⟨v, hv, harrow⟩, -⟩ := mem_fresh.1 hw
        exact step v w (hnewest v hv) harrow
      refine ih (fun v hv => ?_) hfresh
      rcases List.mem_append.1 hv with hv | hv
      · exact hseen v hv
      · exact hfresh v hv

/-- A round that finds a vertex leaves fewer of them to find. -/
theorem length_unseen_lt (hclosed : d.Closed) (h : d.fresh seen newest ≠ []) :
    (d.vertices.filter (· ∉ seen ++ d.fresh seen newest)).length <
      (d.vertices.filter (· ∉ seen)).length := by
  obtain ⟨w, hw⟩ := List.exists_mem_of_ne_nil _ h
  obtain ⟨⟨v, -, harrow⟩, hunseen⟩ := mem_fresh.1 hw
  have hsplit : d.vertices.filter (· ∉ seen ++ d.fresh seen newest) =
      (d.vertices.filter (· ∉ seen)).filter (· ∉ d.fresh seen newest) := by
    rw [List.filter_filter]
    refine List.filter_congr fun u _ => ?_
    simp [Bool.and_comm]
  rw [hsplit, List.length_filter_lt_length_iff_exists]
  refine ⟨w, List.mem_filter.2 ⟨(hclosed v w harrow).2, by simpa using hunseen⟩, ?_⟩
  simpa using hw

/-- No arrow leads out of what is found. -/
theorem spread_closed (hclosed : d.Closed) (hnewest : newest ⊆ seen)
    (hold : ∀ v ∈ seen, v ∉ newest → ∀ w, d.Arrow v w → w ∈ seen)
    (hrounds : (d.vertices.filter (· ∉ seen)).length ≤ rounds) :
    ∀ v ∈ d.spread rounds seen newest, ∀ w, d.Arrow v w → w ∈ d.spread rounds seen newest := by
  induction rounds generalizing seen newest with
  | zero =>
    intro v _ w harrow
    have hall := List.filter_eq_nil_iff.1 (List.length_eq_zero_iff.1 (Nat.le_zero.1 hrounds))
    simpa [spread] using hall w (hclosed v w harrow).2
  | succ rounds ih =>
    have hstep : ∀ v ∈ seen, ∀ w, d.Arrow v w → w ∈ seen ∨ w ∈ d.fresh seen newest := by
      intro v hv w harrow
      by_cases hw : w ∈ seen
      · exact .inl hw
      by_cases hnew : v ∈ newest
      · exact .inr (mem_fresh.2 ⟨⟨v, hnew, harrow⟩, hw⟩)
      · exact .inl (hold v hv hnew w harrow)
    rw [spread_succ]
    split
    · next hnil =>
      intro v hv w harrow
      rcases hstep v hv w harrow with hw | hw
      · exact hw
      · rw [hnil] at hw
        cases hw
    · next hne =>
      refine ih (List.subset_append_right seen _) (fun v hv hnotFresh w harrow => ?_) ?_
      · have hv' : v ∈ seen := (List.mem_append.1 hv).resolve_right hnotFresh
        exact List.mem_append.2 (hstep v hv' w harrow)
      · have := length_unseen_lt hclosed hne
        omega

/-! ### What is reached -/

theorem subset_reachFrom (starts : List α) : starts ⊆ d.reachFrom starts := subset_spread _ _ _

/-- What holds of the starts, and is passed on by arrows, holds of all that is reached. -/
theorem reachFrom_induction {P : α → Prop} (step : ∀ v w, P v → d.Arrow v w → P w)
    (hstarts : ∀ v ∈ starts, P v) : ∀ v ∈ d.reachFrom starts, P v :=
  spread_induction step hstarts hstarts

theorem mem_reachFrom_iff (hclosed : d.Closed) :
    w ∈ d.reachFrom starts ↔ ∃ v ∈ starts, ReflTransGen d.Arrow v w := by
  constructor
  · refine reachFrom_induction (P := fun w => ∃ v ∈ starts, ReflTransGen d.Arrow v w) ?_ ?_ w
    · rintro u w ⟨v, hv, hpath⟩ harrow
      exact ⟨v, hv, hpath.tail harrow⟩
    · exact fun v hv => ⟨v, hv, .refl⟩
  · rintro ⟨v, hv, hpath⟩
    induction hpath with
    | refl => exact subset_reachFrom starts hv
    | tail _ harrow ih =>
      refine spread_closed hclosed (List.Subset.refl starts) ?_ (List.length_filter_le _ _) _ ih _
        harrow
      exact fun v hv hnot => absurd hv hnot

theorem mem_reach_iff (hclosed : d.Closed) : w ∈ d.reach v ↔ ReflTransGen d.Arrow v w := by
  rw [reach, mem_reachFrom_iff hclosed]
  simp

theorem mem_reach_self : v ∈ d.reach v := subset_reachFrom [v] (List.mem_singleton_self v)

/-- A graph has a cycle exactly if some vertex is reached from itself by at least one arrow. -/
theorem hasCycle_iff (hclosed : d.Closed) : d.hasCycle = true ↔ ∃ v, TransGen d.Arrow v v := by
  simp only [hasCycle, List.any_eq_true, List.contains_iff_mem, mem_next, mem_reach_iff hclosed]
  constructor
  · rintro ⟨v, -, w, harrow, hback⟩
    exact ⟨v, .head' harrow hback⟩
  · rintro ⟨v, hcycle⟩
    obtain ⟨w, harrow, hback⟩ := TransGen.head'_iff.1 hcycle
    exact ⟨v, (hclosed v w harrow).1, w, harrow, hback⟩

theorem hasCycle_eq_false_iff (hclosed : d.Closed) :
    d.hasCycle = false ↔ ∀ v, ¬ TransGen d.Arrow v v := by
  rw [← Bool.not_eq_true, hasCycle_iff hclosed, not_exists]

end NodeFlow.Digraph
