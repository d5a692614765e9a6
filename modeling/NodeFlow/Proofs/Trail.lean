import Mathlib.Data.List.Perm.Subperm
import Mathlib.Logic.Relation

/-!
# Descents without repetition, and cycles

A descent goes from place to place along a relation and enters no place twice.  Where there are
only so many places, it ends: given one step more than there are places, it never uses up its steps
(`Trail.pos`).  A place that it meets again lies on a cycle of the relation (`Trail.leads`).  A
place from which a cycle can be reached is told by any place it leads to (`reachesCycle_iff`).
-/

open Relation

namespace NodeFlow

/-- A descent that has come to `a`: the places on the way, and the number of steps left. -/
structure Trail {α : Type} (r : α → α → Prop) (places way : List α) (a : α) (depth : Nat) :
    Prop where
  nodup : way.Nodup
  subset : way ⊆ places
  leads : ∀ b ∈ way, TransGen r b a
  deep : places.length < depth + way.length

namespace Trail

variable {α : Type} {r : α → α → Prop} {places way : List α} {a b : α} {depth : Nat}

theorem start (a : α) (h : places.length < depth) : Trail r places [] a depth where
  nodup := List.nodup_nil
  subset := List.nil_subset _
  leads := by simp
  deep := by simpa using h

/-- There is always a step left, as the way has no repetition. -/
theorem pos (t : Trail r places way a depth) : 0 < depth := by
  have h₁ := (t.nodup.subperm t.subset).length_le
  have h₂ := t.deep
  omega

theorem step (t : Trail r places way a (depth + 1)) (ha : a ∈ places) (fresh : a ∉ way)
    (hab : r a b) : Trail r places (a :: way) b depth where
  nodup := List.nodup_cons.2 ⟨fresh, t.nodup⟩
  subset := List.cons_subset.2 ⟨ha, t.subset⟩
  leads := by
    intro c hc
    rcases List.mem_cons.1 hc with rfl | hc
    · exact .single hab
    · exact (t.leads c hc).tail hab
  deep := by
    have := t.deep
    simp only [List.length_cons]
    omega

end Trail

/-! ### Cycles -/

variable {α : Type} {r : α → α → Prop} {a b : α}

/-- A cycle of the relation can be reached from `a`. -/
def ReachesCycle (r : α → α → Prop) (a : α) : Prop := ∃ c, ReflTransGen r a c ∧ TransGen r c c

theorem ReachesCycle.head (h : r a b) (hb : ReachesCycle r b) : ReachesCycle r a := by
  obtain ⟨c, hc, cycle⟩ := hb
  exact ⟨c, .head h hc, cycle⟩

theorem reachesCycle_iff : ReachesCycle r a ↔ ∃ b, r a b ∧ ReachesCycle r b := by
  constructor
  · rintro ⟨c, hc, cycle⟩
    rcases ReflTransGen.cases_head hc with rfl | ⟨b, hb, hbc⟩
    · obtain ⟨b, hb, hbc⟩ := TransGen.head'_iff.1 cycle
      exact ⟨b, hb, _, hbc, cycle⟩
    · exact ⟨b, hb, c, hbc, cycle⟩
  · rintro ⟨b, hb, h⟩
    exact h.head hb

end NodeFlow
