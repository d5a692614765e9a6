import NodeFlow.Text.Ranges

/-!
# A place in the text of a document

What is left of the text, how many characters came before, and the line and the column of the next
one. A byte order mark takes no column. Four characters end a line; all but two of them count as the
plain line feed.
-/

namespace NodeFlow.Document

/-- Whether a character ends a line. -/
def isBreak (c : Char) : Bool := c == '\n' || c == '\x85' || c == '\u2028' || c == '\u2029'

/-- Whether a character is a space or a tab. -/
def isBlank (c : Char) : Bool := c == ' ' || c == '\t'

/-- Whether a word ends before the given character: at a space or where a line ends. -/
def endsWord : Option Char → Bool
  | none => true
  | some c => c == ' ' || isBreak c

/-- Whether the given character is a gap: a space, a tab, or where a line ends. -/
def isGap : Option Char → Bool
  | none => true
  | some c => isBlank c || isBreak c

/-- A place in a text. -/
structure Cursor where
  rest : List Char
  index : Nat
  line : Nat
  column : Nat

namespace Cursor

/-- The place before a whole text. -/
def start (text : List Char) : Cursor := ⟨text, 0, 0, 0⟩

/-- The next character. -/
def next (c : Cursor) : Option Char := c.rest.head?

/-- The character that comes after the given number of others. -/
def ahead (c : Cursor) (n : Nat) : Option Char := c.rest[n]?

/-- The place after the next character. -/
def step (c : Cursor) : Cursor :=
  match c.rest with
  | [] => c
  | ch :: rest =>
    if isBreak ch then ⟨rest, c.index + 1, c.line + 1, 0⟩
    else ⟨rest, c.index + 1, c.line, if ch = '\uFEFF' then c.column else c.column + 1⟩

/-- The place after the given number of characters. -/
def advance (c : Cursor) : Nat → Cursor
  | 0 => c
  | n + 1 => c.step.advance n

/-- The characters from here on that have a property, and the place after them. -/
def takeWhile (p : Char → Bool) (c : Cursor) : List Char × Cursor :=
  let taken := c.rest.takeWhile p
  (taken, c.advance taken.length)

/-- The place after the characters that have a property. -/
def skipWhile (p : Char → Bool) (c : Cursor) : Cursor := (c.takeWhile p).2

/-- The place after the spaces. -/
def skipSpaces (c : Cursor) : Cursor := c.skipWhile (· == ' ')

/-- The place where the line ends. -/
def skipLine (c : Cursor) : Cursor := c.skipWhile (!isBreak ·)

/-- The place after a comment, if one starts here. -/
def skipComment (c : Cursor) : Cursor := if c.next = some '#' then c.skipLine else c

/-- What the end of a line counts as, and the place after it; `none` when no line ends here. -/
def takeBreak? (c : Cursor) : Option (Char × Cursor) :=
  match c.next with
  | some ch => if isBreak ch then some (if ch = '\x85' then '\n' else ch, c.step) else none
  | none => none

/-- Whether a line that separates documents begins here. -/
def atSeparator (c : Cursor) : Bool :=
  (c.rest.take 3 == ['-', '-', '-'] || c.rest.take 3 == ['.', '.', '.']) && isGap (c.ahead 3)

/-- A step takes the next character off the rest. -/
theorem rest_step (c : Cursor) : c.step.rest = c.rest.tail := by
  unfold step
  split
  · simp_all
  · split <;> simp_all

/-- The rest after some characters is the rest without them. -/
theorem rest_advance (c : Cursor) (n : Nat) : (c.advance n).rest = c.rest.drop n := by
  induction n generalizing c with
  | zero => rfl
  | succ n ih => rw [advance, ih, rest_step, List.drop_tail]

/-! ### What is left gets shorter -/

/-- How many characters are left. -/
def left (c : Cursor) : Nat := c.rest.length

theorem left_step_le (c : Cursor) : c.step.left ≤ c.left := by
  simp only [left, rest_step, List.length_tail]
  omega

theorem left_step_lt {c : Cursor} {ch : Char} (h : c.next = some ch) : c.step.left < c.left := by
  obtain ⟨rest, hr⟩ := List.head?_eq_some_iff.1 h
  simp only [left, rest_step, hr, List.length_tail, List.length_cons]
  omega

theorem left_advance (c : Cursor) (n : Nat) : (c.advance n).left = c.left - n := by
  simp only [left, rest_advance, List.length_drop]

theorem left_takeWhile_le (p : Char → Bool) (c : Cursor) : (c.takeWhile p).2.left ≤ c.left := by
  simp only [takeWhile, left_advance]
  omega

/-- A run that is not empty leaves less. -/
theorem left_takeWhile_lt {p : Char → Bool} {c : Cursor} {ch : Char} (h : c.next = some ch)
    (hp : p ch = true) : (c.takeWhile p).2.left < c.left := by
  obtain ⟨rest, hr⟩ := List.head?_eq_some_iff.1 h
  simp only [takeWhile, left_advance]
  simp only [left, hr, List.takeWhile_cons_of_pos hp, List.length_cons]
  omega

theorem left_skipWhile_le (p : Char → Bool) (c : Cursor) : (c.skipWhile p).left ≤ c.left :=
  left_takeWhile_le p c

theorem left_skipComment_le (c : Cursor) : c.skipComment.left ≤ c.left := by
  unfold skipComment
  split
  · exact left_skipWhile_le ..
  · exact Nat.le_refl _

/-- The end of a line is a character. -/
theorem left_takeBreak?_lt {c after : Cursor} {ch : Char} (h : c.takeBreak? = some (ch, after)) :
    after.left < c.left := by
  unfold takeBreak? at h
  split at h
  · split at h
    · cases h
      exact left_step_lt ‹_›
    · cases h
  · cases h

/-- Where no line ends, what comes next is no line end. -/
theorem isBreak_of_takeBreak?_eq_none {c : Cursor} {ch : Char} (h : c.takeBreak? = none)
    (hn : c.next = some ch) : isBreak ch = false := by
  cases hb : isBreak ch
  · rfl
  · simp [takeBreak?, hn, hb] at h

end Cursor

end NodeFlow.Document
