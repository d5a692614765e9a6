import NodeFlow.Text.Ranges

/-!
# Blank characters

The characters that surround a text without belonging to it: those of Unicode's space separators
and of its bidirectional classes for separators and white space. All but the four information
separators among them are white space.
-/

namespace NodeFlow.Text

/-- The code points of blank characters. -/
def blanks : CharRanges := [
  (0x9, 0xD), (0x1C, 0x20), (0x85, 0x85), (0xA0, 0xA0), (0x1680, 0x1680), (0x2000, 0x200A),
  (0x2028, 0x2029), (0x202F, 0x202F), (0x205F, 0x205F), (0x3000, 0x3000)]

/-- Whether a character is blank. -/
def isBlank (c : Char) : Bool := blanks.has c

/-- Whether a character is white space. -/
def isWhite (c : Char) : Bool := isBlank c && !CharRanges.has [(0x1C, 0x1F)] c

/-- A text without the characters of some kind at its two ends. -/
def stripOf (p : Char → Bool) (s : List Char) : List Char :=
  ((s.dropWhile p).reverse.dropWhile p).reverse

theorem mem_of_mem_stripOf {p : Char → Bool} {c : Char} {s : List Char} (h : c ∈ stripOf p s) :
    c ∈ s := by
  have hmem := (List.dropWhile_sublist p).subset (List.mem_reverse.1 h)
  exact (List.dropWhile_sublist p).subset (List.mem_reverse.1 hmem)

/-- A text without the blank characters at its two ends. -/
def strip (s : List Char) : List Char := stripOf isBlank s

/-- A text without the white space at its two ends. -/
def trim (s : List Char) : List Char := stripOf isWhite s

end NodeFlow.Text
