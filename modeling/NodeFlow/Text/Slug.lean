import NodeFlow.Text.Blank
import NodeFlow.Text.Lower

/-!
# Slugs

A slug is a text made fit for a name: its lower case, with every run of characters outside `a`–`z`
and `0`–`9` turned into one underscore, and no underscore at either end.
-/

namespace NodeFlow.Text

/-- Whether a character may stand in a slug as itself. -/
def isSlugChar (c : Char) : Bool := c.isLower || c.isDigit

/-- A text in which one underscore stands for each run of other characters. `inGap` says that the
underscore for a run that goes on stands there already. -/
def markGaps : (inGap : Bool) → List Char → List Char
  | _, [] => []
  | inGap, c :: rest =>
    if isSlugChar c then c :: markGaps false rest
    else if inGap then markGaps true rest
    else '_' :: markGaps true rest

/-- The slug of a text, as characters. -/
def slugChars (s : List Char) : List Char := stripOf (· == '_') (markGaps false (lower s))

/-- The slug of a text. -/
def slug (s : String) : String := String.ofList (slugChars s.toList)

example : slug "--Gr\u00f6\u00dfe 2!" = "gr_e_2" := by decide +kernel

end NodeFlow.Text
