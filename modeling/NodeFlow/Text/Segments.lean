/-!
# Segments of a text

A text cut at every occurrence of a separator. The pieces are one more than the separators, so a
text without any is one segment.
-/

namespace NodeFlow.Text

/-- The pieces of a text between its separators. -/
def segments (separator : Char) : List Char → List (List Char)
  | [] => [[]]
  | c :: rest =>
    match segments separator rest with
    | [] => [[c]]
    | piece :: others => if c = separator then [] :: piece :: others else (c :: piece) :: others

/-- A text has at least one segment. -/
theorem segments_ne_nil (separator : Char) (s : List Char) : segments separator s ≠ [] := by
  cases s with
  | nil => simp [segments]
  | cons c rest =>
    unfold segments
    split
    · simp
    · split <;> simp

end NodeFlow.Text
