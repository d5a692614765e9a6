import Mathlib.Data.List.Perm.Subperm
import NodeFlow.Proofs.Graph.Roots
import NodeFlow.Proofs.Text.Numbered

/-!
# Labels of roots

Where a graph has no outputs, its roots are labelled so that no label is given twice
(`labels_nodup_labelSinks`).  Outputs keep the labels that they have, and only those without one are
numbered, so two outputs may clash (`Clash`), and this is the only way in which two roots come to
have one label (`labels_nodup_iff`).
-/

namespace NodeFlow

/-! ### Labels that are made -/

theorem numberedLabel_injective (base : String) : Function.Injective (numberedLabel base) := by
  -- a number makes a label longer than its base
  have longer (k : Nat) : base ≠ base ++ "_" ++ toString k := by
    intro h
    have hlength := congrArg (·.toList.length) h
    simp at hlength
  intro k m h
  rw [numberedLabel, numberedLabel] at h
  split at h <;> split at h
  · omega
  · exact absurd h (longer _)
  · exact absurd h.symm (longer _)
  · have := (Text.eq_of_numbered h).2
    omega

/-- The label that is made is the first of its base that is not in use. -/
theorem exists_freeLabel (used : List String) (base : String) :
    ∃ k, freeLabel used base = numberedLabel base k ∧ numberedLabel base k ∉ used ∧
      ∀ j < k, numberedLabel base j ∈ used := by
  have hfound : ((List.range (used.length + 1)).find? fun k =>
      !used.contains (numberedLabel base k)).isSome := by
    by_contra hnone
    have hall : (List.range (used.length + 1)).map (numberedLabel base) ⊆ used := by
      intro label hlabel
      obtain ⟨k, hk, rfl⟩ := List.mem_map.1 hlabel
      simp only [List.find?_isSome, not_exists, not_and, Bool.not_eq_true',
        Bool.not_eq_false] at hnone
      simpa using hnone k hk
    have hnodup : ((List.range (used.length + 1)).map (numberedLabel base)).Nodup :=
      List.nodup_range.map (numberedLabel_injective base)
    have hlength := (hnodup.subperm hall).length_le
    rw [List.length_map, List.length_range] at hlength
    omega
  obtain ⟨k, hk⟩ := Option.isSome_iff_exists.1 hfound
  obtain ⟨hfree, -, hused⟩ := List.find?_range_eq_some.1 hk
  refine ⟨k, ?_, by simpa using hfree, fun j hj => by simpa using hused j hj⟩
  rw [freeLabel, List.find?_map]
  exact congrArg (fun o => (o.map (numberedLabel base)).getD base) hk

/-- A label that is made is not in use. -/
theorem freeLabel_notMem (used : List String) (base : String) : freeLabel used base ∉ used := by
  obtain ⟨k, hk, hfree, -⟩ := exists_freeLabel used base
  rwa [hk]

namespace Graph

theorem labels_nodup_labelSinks {before : List Root} (h : (before.map (·.label)).Nodup)
    (nodes : List Node) : ((labelSinks before nodes).map (·.label)).Nodup := by
  induction nodes generalizing before with
  | nil => exact h
  | cons n rest ih =>
    rw [labelSinks]
    split
    · exact ih h
    · refine ih ?_
      rw [List.map_append, List.map_singleton, ← List.concat_eq_append]
      exact h.concat (freeLabel_notMem _ _)

end Graph

/-! ### Labels of outputs -/

/-- The labels of the outputs, as they are given. -/
def Graph.outputLabels (g : Graph) : List String :=
  g.nodes.filterMap fun n =>
    match n.content with
    | .output label _ => some label
    | _ => none

/-- The label that stands for an output of a number. -/
def shownLabel (i : Nat) (label : String) : String :=
  Text.orElse label ("result_" ++ toString (i + 1))

theorem shownLabel_empty (i : Nat) : shownLabel i "" = "result" ++ "_" ++ toString (i + 1) := rfl

theorem shownLabel_ne_empty (i : Nat) : shownLabel i "" ≠ "" := by
  rw [shownLabel_empty]
  intro h
  simpa using congrArg (·.toList.length) h

theorem shownLabel_of_ne {label : String} (h : label ≠ "") (i : Nat) :
    shownLabel i label = label := by
  rw [shownLabel, Text.orElse, if_neg (by simpa using h)]

/-- Two outputs come to be shown under one label exactly if their labels clash. -/
theorem shownLabel_eq_iff {i j : Nat} {label label' : String} (h : i ≠ j) :
    shownLabel i label = shownLabel j label' ↔
      (if label = "" then label' = shownLabel i "" else label = label') ∨
      (if label' = "" then label = shownLabel j "" else label' = label) := by
  by_cases hempty : label = "" <;> by_cases hempty' : label' = ""
  · have hnumbers : shownLabel i "" ≠ shownLabel j "" := by
      rw [shownLabel_empty, shownLabel_empty]
      intro heq
      have := (Text.eq_of_numbered heq).2
      omega
    simp [hempty, hempty', hnumbers, (shownLabel_ne_empty _).symm]
  · simp [hempty, hempty', shownLabel_of_ne, eq_comm]
  · simp [hempty, hempty', shownLabel_of_ne]
  · simp [hempty, hempty', shownLabel_of_ne, eq_comm]

/-- Two of the labels given to outputs clash: they are the same, or one is empty and the other is
the one that is shown in its place. -/
def Clash (labels : List String) : Prop :=
  ∃ i j label label', i ≠ j ∧ labels[i]? = some label ∧ labels[j]? = some label' ∧
    if label = "" then label' = "result_" ++ toString (i + 1) else label = label'

theorem nodup_mapIdx_iff {α β : Type} {f : Nat → α → β} {l : List α} : (l.mapIdx f).Nodup ↔
    ∀ i j a b, i ≠ j → l[i]? = some a → l[j]? = some b → f i a ≠ f j b := by
  rw [List.nodup_iff_getElem?_ne_getElem?]
  constructor
  · intro h i j a b hne ha hb
    have ordered {i j : Nat} {a b : α} (hlt : i < j) (ha : l[i]? = some a) (hb : l[j]? = some b) :
        f i a ≠ f j b := by
      obtain ⟨hj, -⟩ := List.getElem?_eq_some_iff.1 hb
      have hne := h i j hlt (by rwa [List.length_mapIdx])
      rw [List.getElem?_mapIdx, List.getElem?_mapIdx, ha, hb] at hne
      exact fun heq => hne (congrArg some heq)
    rcases Nat.lt_or_gt_of_ne hne with hlt | hlt
    · exact ordered hlt ha hb
    · exact (ordered hlt hb ha).symm
  · intro h i j hlt hj
    rw [List.length_mapIdx] at hj
    have hi : i < l.length := Nat.lt_trans hlt hj
    rw [List.getElem?_mapIdx, List.getElem?_mapIdx, List.getElem?_eq_getElem hi,
      List.getElem?_eq_getElem hj]
    exact fun heq => h i j l[i] l[j] (Nat.ne_of_lt hlt) (List.getElem?_eq_getElem hi)
      (List.getElem?_eq_getElem hj) (Option.some.inj heq)

theorem nodup_shown_iff {labels : List String} :
    (labels.mapIdx shownLabel).Nodup ↔ ¬ Clash labels := by
  rw [nodup_mapIdx_iff]
  constructor
  · rintro h ⟨i, j, label, label', hne, hi, hj, hclash⟩
    exact h i j label label' hne hi hj ((shownLabel_eq_iff hne).2 (.inl hclash))
  · intro h i j label label' hne hi hj heq
    rcases (shownLabel_eq_iff hne).1 heq with hclash | hclash
    · exact h ⟨i, j, label, label', hne, hi, hj, hclash⟩
    · exact h ⟨j, i, label', label, hne.symm, hj, hi, hclash⟩

variable {g : Graph}

theorem Graph.map_label_outputRoots :
    g.outputRoots.map (·.label) = g.outputLabels.mapIdx shownLabel := by
  have hlabels : g.outputLabels = (g.nodes.filterMap fun n =>
      match n.content with
      | .output label _ => some (n.id, label)
      | _ => none).map (·.2) := by
    rw [outputLabels, List.map_filterMap]
    congr 1
    funext n
    cases n.content <;> rfl
  rw [hlabels, outputRoots]
  simp only [List.mapIdx_eq_zipIdx_map, List.zipIdx_map, List.map_map]
  rfl

/-- **Roots have labels of their own unless outputs clash.** -/
theorem Graph.labels_nodup_iff : (g.roots.map (·.label)).Nodup ↔ ¬ Clash g.outputLabels := by
  rw [← nodup_shown_iff, ← map_label_outputRoots, roots]
  split
  · next hempty =>
    have hnone : (([] : List Root).map (·.label)).Nodup := List.nodup_nil
    rw [List.isEmpty_iff.1 hempty]
    exact iff_of_true (labels_nodup_labelSinks hnone _) hnone
  · rfl

end NodeFlow
