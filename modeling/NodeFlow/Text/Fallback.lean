/-!
# Falling back on another text

The empty text stands for a missing one where a label or a handle is asked for.
-/

namespace NodeFlow.Text

/-- The first text unless it is empty, and then the second. -/
def orElse (s t : String) : String := if s.isEmpty then t else s

/-- The result is empty only if both texts are. -/
theorem orElse_eq_empty_iff {s t : String} : orElse s t = "" ↔ s = "" ∧ t = "" := by
  unfold orElse
  split <;> simp_all

end NodeFlow.Text
