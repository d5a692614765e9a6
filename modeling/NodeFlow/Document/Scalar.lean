import NodeFlow.Document.Lexeme

/-!
# Texts of a document

A text may be written plainly, in single or double quotes, or as a block of lines. Wherever a text
goes over several lines, a lone line end counts as a space, and of several the first is dropped.
-/

namespace NodeFlow.Document

/-- What the end of a line counts as, given the empty lines after it. -/
def foldBreak (first : Char) (others : List Char) : List Char :=
  if first ≠ '\n' then first :: others else if others.isEmpty then [' '] else others

/-! ### Plain texts -/

/-- Whether a colon before the given character ends a word of a plain text. -/
def endsKey (flow : Bool) (next : Option Char) : Bool :=
  isGap next || flow && next.any fun ch => ",[]\x7b\x7d".toList.contains ch

/-- The word of a plain text that a text begins with. In brackets, some marks end a word. -/
def plainWord (flow : Bool) : List Char → List Char
  | [] => []
  | c :: rest =>
    if isGap (some c) || (c == ':' && endsKey flow rest.head?)
        || (flow && ",?[]\x7b\x7d".toList.contains c) then []
    else c :: plainWord flow rest

/-- The word of a plain text at a place; a comment is none. -/
def wordAt (flow : Bool) (c : Cursor) : List Char :=
  if c.next = some '#' then [] else plainWord flow c.rest

/-- The line ends among the blank lines at a place; `none` when a line that separates documents
comes after one of them. -/
def plainBreaks (c : Cursor) : Option (List Char) × Cursor :=
  match _h : c.skipSpaces.takeBreak? with
  | none => (some [], c.skipSpaces)
  | some (first, after) =>
    if after.atSeparator then (none, after)
    else
      let (others, c) := plainBreaks after
      (others.map (first :: ·), c)
termination_by c.left
decreasing_by exact Nat.lt_of_lt_of_le (Cursor.left_takeBreak?_lt _h) (c.left_skipWhile_le _)

/-- What stands for the gap after a word of a plain text, the place after the gap, and whether a
line ended in it. Nothing stands for a gap after which no text may follow. -/
def plainGap (c : Cursor) : List Char × Cursor × Bool :=
  let (spaces, c) := c.takeWhile (· == ' ')
  match c.takeBreak? with
  | none => (spaces, c, false)
  | some (first, c) =>
    if c.atSeparator then ([], c, true)
    else
      match plainBreaks c with
      | (none, c) => ([], c, true)
      | (some others, c) => (foldBreak first others, c, true)

/-- A word is a part of what is left. -/
theorem length_wordAt_le (flow : Bool) (c : Cursor) : (wordAt flow c).length ≤ c.left := by
  have (cs : List Char) : (plainWord flow cs).length ≤ cs.length := by
    fun_induction plainWord flow cs with
    | case1 => exact Nat.le_refl _
    | case2 => exact Nat.zero_le _
    | case3 _ _ _ ih => exact Nat.succ_le_succ ih
  unfold wordAt
  split
  · exact Nat.zero_le _
  · exact this c.rest

theorem left_plainBreaks_le (c : Cursor) : (plainBreaks c).2.left ≤ c.left := by
  fun_induction plainBreaks c with
  | case1 c => exact c.left_skipWhile_le _
  | case2 c _ after h =>
    exact Nat.le_of_lt (Nat.lt_of_lt_of_le (Cursor.left_takeBreak?_lt h) (c.left_skipWhile_le _))
  | case3 c _ after h _ others place hr ih =>
    have := Nat.lt_of_lt_of_le (Cursor.left_takeBreak?_lt h) (c.left_skipWhile_le _)
    rw [hr] at ih
    exact Nat.le_trans ih (Nat.le_of_lt this)

theorem left_plainGap_le (c : Cursor) : (plainGap c).2.1.left ≤ c.left := by
  have hs := c.left_takeWhile_le (· == ' ')
  unfold plainGap
  simp only
  split
  · exact hs
  · next after h =>
    have ha := Nat.le_trans (Nat.le_of_lt (Cursor.left_takeBreak?_lt h)) hs
    have hb := Nat.le_trans (left_plainBreaks_le after) ha
    split
    · exact ha
    · split <;> simp_all

/-- The words of a plain text after the given gap, the place after them, and whether a line ended
there. -/
def plainWords (flow : Bool) (indent : Int) (c : Cursor) (gap : List Char) (ended : Bool) :
    List Char × Cursor × Bool :=
  let word := wordAt flow c
  if _h : word = [] then ([], c, ended)
  else
    match _hg : plainGap (c.advance word.length) with
    | (nextGap, after, ended) =>
      if nextGap.isEmpty || after.next == some '#' || (!flow && after.column < indent) then
        (gap ++ word, after, ended)
      else
        let (words, c, ended) := plainWords flow indent after nextGap ended
        (gap ++ word ++ words, c, ended)
termination_by c.left
decreasing_by
  have hl : word.length ≤ c.left := length_wordAt_le flow c
  have hg := left_plainGap_le (c.advance word.length)
  have hw : 0 < word.length := List.length_pos_iff.2 _h
  simp only [_hg, Cursor.left_advance] at hg
  omega

/-- A plain text, the place after it, and whether a line ended there. Outside brackets, its lines
are at least as far in as `indent`. -/
def plain (flow : Bool) (indent : Int) (c : Cursor) : String × Cursor × Bool :=
  let (text, c, ended) := plainWords flow indent c [] false
  (String.ofList text, c, ended)

/-! ### Quoted texts -/

/-- The line ends among the blank lines at a place inside quotes. -/
def quotedBreaks (c : Cursor) : Except Fault (List Char × Cursor) :=
  if c.atSeparator then .error .token
  else
    match _h : (c.skipWhile isBlank).takeBreak? with
    | none => .ok ([], c.skipWhile isBlank)
    | some (first, after) => (quotedBreaks after).map fun (others, c) => (first :: others, c)
termination_by c.left
decreasing_by exact Nat.lt_of_lt_of_le (Cursor.left_takeBreak?_lt _h) (c.left_skipWhile_le _)

/-- What stands for the gap at a place inside quotes. -/
def quotedGap (c : Cursor) : Except Fault (List Char × Cursor) :=
  let (blanks, c) := c.takeWhile isBlank
  match c.takeBreak? with
  | none => .ok (blanks, c)
  | some (first, c) => (quotedBreaks c).map fun (others, c) => (foldBreak first others, c)

/-- The character of an escape with one letter. -/
def letterEscape? (letter : Char) : Option Char :=
  match letter with
  | '0' => some '\x00'
  | 'a' => some '\x07'
  | 'b' => some '\x08'
  | 't' | '\t' => some '\t'
  | 'n' => some '\n'
  | 'v' => some '\x0b'
  | 'f' => some '\x0c'
  | 'r' => some '\r'
  | 'e' => some '\x1b'
  | ' ' => some ' '
  | '"' => some '"'
  | '\\' => some '\\'
  | '/' => some '/'
  | 'N' => some '\x85'
  | '_' => some '\xa0'
  | 'L' => some '\u2028'
  | 'P' => some '\u2029'
  | _ => none

/-- How many hexadecimal digits follow a letter that announces a code. -/
def codeLength? (letter : Char) : Option Nat :=
  match letter with
  | 'x' => some 2
  | 'u' => some 4
  | 'U' => some 8
  | _ => none

/-- The character whose code has the given number of digits, and the place after it. -/
def codeChar (length : Nat) (c : Cursor) : Except Fault (Char × Cursor) :=
  match (c.rest.take length).mapM Json.hexValue? with
  | some digits =>
    if digits.length < length then .error .token
    else
      let code := digits.foldl (fun n d => 16 * n + d) 0
      if 0x10FFFF < code then .error (.noCharacter code)
      else .ok (Text.charOfCode code, c.advance length)
  | none => .error .token

/-- What stands for an escape, from the place after its backslash. -/
def escape (c : Cursor) : Except Fault (List Char × Cursor) :=
  match c.takeBreak? with
  | some (_, c) => quotedBreaks c
  | none =>
    match c.next with
    | none => .error .token
    | some letter =>
      match letterEscape? letter, codeLength? letter with
      | some ch, _ => .ok ([ch], c.step)
      | none, some length => (codeChar length c.step).map fun (ch, c) => ([ch], c)
      | none, none => .error .token

/-- What stands for the part at a place inside quotes, and the place after the part; `none` at the
closing quote. -/
def quotedPart (double : Bool) (c : Cursor) : Except Fault (Option (List Char × Cursor)) :=
  match c.next with
  | none => .error .token
  | some ch =>
    if ch = '\'' && !double then
      .ok (if c.ahead 1 = some '\'' then some (['\''], c.advance 2) else none)
    else if ch = '"' && double then .ok none
    else if ch = '\\' && double then (escape c.step).map some
    else if isGap (some ch) then (quotedGap c).map some
    else .ok (some ([ch], c.step))

theorem left_quotedBreaks_le {c after : Cursor} {breaks : List Char}
    (h : quotedBreaks c = .ok (breaks, after)) : after.left ≤ c.left := by
  fun_induction quotedBreaks c generalizing breaks with
  | case1 => cases h
  | case2 c =>
    cases h
    exact c.left_skipWhile_le _
  | case3 c _ _ next hb ih =>
    have := Nat.lt_of_lt_of_le (Cursor.left_takeBreak?_lt hb) (c.left_skipWhile_le _)
    obtain ⟨_, hr, he⟩ := exists_of_map_eq_ok h
    cases he
    exact Nat.le_trans (ih hr) (Nat.le_of_lt this)

/-- A gap inside quotes takes at least the character that makes it one. -/
theorem left_quotedGap_lt {c after : Cursor} {ch : Char} {gap : List Char} (hn : c.next = some ch)
    (hg : isGap (some ch) = true) (h : quotedGap c = .ok (gap, after)) : after.left < c.left := by
  have hs := c.left_takeWhile_le isBlank
  unfold quotedGap at h
  simp only at h
  split at h
  · next hb =>
    cases h
    cases hc : isBlank ch
    · have : (c.takeWhile isBlank).2 = c := by
        obtain ⟨rest, hr⟩ := List.head?_eq_some_iff.1 hn
        simp [Cursor.takeWhile, hr, hc, Cursor.advance]
      rw [this] at hb
      have := Cursor.isBreak_of_takeBreak?_eq_none hb hn
      simp [isGap, hc, this] at hg
    · exact Cursor.left_takeWhile_lt hn hc
  · next next hb =>
    obtain ⟨_, hr, he⟩ := exists_of_map_eq_ok h
    cases he
    have := left_quotedBreaks_le hr
    have := Cursor.left_takeBreak?_lt hb
    omega

theorem left_codeChar_le {length : Nat} {c after : Cursor} {ch : Char}
    (h : codeChar length c = .ok (ch, after)) : after.left ≤ c.left := by
  unfold codeChar at h
  split at h
  · split at h
    · cases h
    · simp only at h
      split at h
      · cases h
      · cases h
        simp only [Cursor.left_advance]
        omega
  · cases h

theorem left_escape_le {c after : Cursor} {chars : List Char}
    (h : escape c = .ok (chars, after)) : after.left ≤ c.left := by
  unfold escape at h
  split at h
  · next hb =>
    exact Nat.le_trans (left_quotedBreaks_le h) (Nat.le_of_lt (Cursor.left_takeBreak?_lt hb))
  · split at h
    · cases h
    · split at h
      · cases h
        exact c.left_step_le
      · obtain ⟨_, hr, he⟩ := exists_of_map_eq_ok h
        cases he
        exact Nat.le_trans (left_codeChar_le hr) c.left_step_le
      · cases h

/-- Every part of a text in quotes takes a character. -/
theorem left_quotedPart_lt {double : Bool} {c after : Cursor} {chars : List Char}
    (h : quotedPart double c = .ok (some (chars, after))) : after.left < c.left := by
  unfold quotedPart at h
  split at h
  · cases h
  · next hn =>
    have hs := Cursor.left_step_lt hn
    split at h
    · split at h
      · cases h
        simp only [Cursor.left_advance]
        omega
      · cases h
    · split at h
      · cases h
      · split at h
        · obtain ⟨_, hr, he⟩ := exists_of_map_eq_ok h
          cases he
          exact Nat.lt_of_le_of_lt (left_escape_le hr) hs
        · split at h
          · next hg =>
            obtain ⟨_, hr, he⟩ := exists_of_map_eq_ok h
            cases he
            exact left_quotedGap_lt hn hg hr
          · cases h
            exact hs

/-- The characters up to the closing quote, and the place after it. -/
def quotedChars (double : Bool) (c : Cursor) : Except Fault (List Char × Cursor) :=
  match _h : quotedPart double c with
  | .error e => .error e
  | .ok none => .ok ([], c.step)
  | .ok (some (chars, after)) =>
    (quotedChars double after).map fun (others, c) => (chars ++ others, c)
termination_by c.left
decreasing_by exact left_quotedPart_lt _h

/-- A text in quotes. -/
def quoted (double : Bool) (c : Cursor) : Except Fault (String × Cursor) :=
  (quotedChars double c.step).map fun (chars, c) => (String.ofList chars, c)

/-! ### Blocks of lines -/

/-- What becomes of the line ends after the last line of a block. -/
inductive Chomping where
  | strip
  | clip
  | keep
deriving DecidableEq, Repr

/-- What the sign in the head of a block says. -/
def chomping? : Option Char → Option Chomping
  | some '+' => some .keep
  | some '-' => some .strip
  | _ => none

/-- The digit in the head of a block, if there is one, and the place after it. -/
def blockDigit (c : Cursor) : Except Fault (Option Nat × Cursor) :=
  match c.next with
  | some d =>
    if d = '0' then .error .token
    else if d.isDigit then .ok (some (d.toNat - '0'.toNat), c.step)
    else .ok (none, c)
  | none => .ok (none, c)

/-- The head of a block: how its end is treated, and how far in its lines are, each of which may be
left out. -/
def blockHead (c : Cursor) : Except Fault ((Chomping × Option Nat) × Cursor) := do
  let (chomping, depth, c) ←
    match chomping? c.next with
    | some chomping => do
      let (depth, c) ← blockDigit c.step
      pure (chomping, depth, c)
    | none => do
      let (depth, c) ← blockDigit c
      match depth.bind fun _ => chomping? c.next with
      | some chomping => pure (chomping, depth, c.step)
      | none => pure (.clip, depth, c)
  if endsWord c.next then return ((chomping, depth), ← endOfLine c) else throw .token

/-- The place after the indentation of a line, at most up to a column. -/
def skipIndent (indent : Nat) (c : Cursor) : Cursor :=
  c.advance ((c.rest.take (indent - c.column)).takeWhile (· == ' ')).length

/-- The line ends among the blank lines at a place of a block. -/
def blockBreaks (indent : Nat) (c : Cursor) : List Char × Cursor :=
  match _h : (skipIndent indent c).takeBreak? with
  | none => ([], skipIndent indent c)
  | some (first, after) =>
    let (others, c) := blockBreaks indent after
    (first :: others, c)
termination_by c.left
decreasing_by
  have := Cursor.left_takeBreak?_lt _h
  simp only [skipIndent, Cursor.left_advance] at this
  omega

/-- The line ends among the blank lines at the start of a block, and the widest indentation of
these and of the first line that is not blank. -/
def blockStart (widest : Nat) (c : Cursor) : List Char × Nat × Cursor :=
  let widest := max widest c.skipSpaces.column
  match _h : c.skipSpaces.takeBreak? with
  | none => ([], widest, c.skipSpaces)
  | some (first, after) =>
    let (others, widest, c) := blockStart widest after
    (first :: others, widest, c)
termination_by c.left
decreasing_by exact Nat.lt_of_lt_of_le (Cursor.left_takeBreak?_lt _h) (c.left_skipWhile_le _)

/-- What the lines of a block give, and what is left at its end. -/
structure BlockBody where
  text : List Char
  /-- The end of the last line. -/
  lastBreak : Option Char
  /-- The ends of the blank lines after it. -/
  tail : List Char
  after : Cursor

/-- Whether a line of a block stands at a place. -/
def atBlockLine (indent : Nat) (c : Cursor) : Bool := c.column == indent && c.next.isSome

/-- How a line of a block ends at a place: its end, those of the blank lines after it, and the place
after these. The last line of a text has no end. -/
def blockEnd (indent : Nat) (c : Cursor) : Option Char × List Char × Cursor :=
  match c.takeBreak? with
  | none => (none, [], c)
  | some (first, c) => (some first, blockBreaks indent c)

theorem left_blockBreaks_le (indent : Nat) (c : Cursor) :
    (blockBreaks indent c).2.left ≤ c.left := by
  fun_induction blockBreaks indent c with
  | case1 c =>
    simp only [skipIndent, Cursor.left_advance]
    omega
  | case2 c _ after h others place hr ih =>
    have := Cursor.left_takeBreak?_lt h
    simp only [hr, skipIndent, Cursor.left_advance] at ih this ⊢
    omega

/-- A line with its end takes at least a character. -/
theorem left_blockEnd_lt (indent : Nat) {c : Cursor} {ch : Char} (hn : c.next = some ch) :
    (blockEnd indent c.skipLine).2.2.left < c.left := by
  have hs : c.skipLine.left ≤ c.left := c.left_skipWhile_le _
  unfold blockEnd
  split
  · next hb =>
    cases hc : isBreak ch
    · exact Cursor.left_takeWhile_lt hn (by simp [hc])
    · have : c.skipLine = c := by
        obtain ⟨rest, hr⟩ := List.head?_eq_some_iff.1 hn
        simp [Cursor.skipLine, Cursor.skipWhile, Cursor.takeWhile, hr, hc, Cursor.advance]
      rw [this] at hb
      simp [Cursor.isBreak_of_takeBreak?_eq_none hb hn] at hc
  · next after hb =>
    have := Cursor.left_takeBreak?_lt hb
    have := left_blockBreaks_le indent after
    simp only
    omega

/-- The lines of a block after some blank ones. In a folded block, a line end between two lines that
start with no blank is folded. -/
def blockLines (folded : Bool) (indent : Nat) (c : Cursor) (breaks : List Char) : BlockBody :=
  if _h : atBlockLine indent c then
    let line := (c.takeWhile (!isBreak ·)).1
    match _he : blockEnd indent c.skipLine with
    | (lastBreak, tail, after) =>
      if atBlockLine indent after then
        let joint :=
          if folded && lastBreak == some '\n' && !c.next.any isBlank && !after.next.any isBlank then
            if tail.isEmpty then [' '] else []
          else lastBreak.toList
        let body := blockLines folded indent after tail
        { body with text := breaks ++ line ++ joint ++ body.text }
      else ⟨breaks ++ line, lastBreak, tail, after⟩
  else ⟨[], none, breaks, c⟩
termination_by c.left
decreasing_by
  simp only [atBlockLine, Bool.and_eq_true, Option.isSome_iff_exists] at _h
  obtain ⟨_, _, hn⟩ := _h
  have := left_blockEnd_lt indent hn
  rwa [_he] at this

/-- A block of lines inside a part that is as far in as `parent`. -/
def block (folded : Bool) (parent : Int) (c : Cursor) : Except Fault (String × Cursor) := do
  let ((chomping, depth), c) ← blockHead c.step
  let least := (max 1 (parent + 1)).toNat
  let (breaks, indent, c) := match depth with
    | none =>
      let (breaks, widest, c) := blockStart 0 c
      (breaks, max least widest, c)
    | some depth =>
      let indent := least + depth - 1
      let (breaks, c) := blockBreaks indent c
      (breaks, indent, c)
  let body := blockLines folded indent c breaks
  let ending := match chomping with
    | .strip => []
    | .clip => body.lastBreak.toList
    | .keep => body.lastBreak.toList ++ body.tail
  return (String.ofList (body.text ++ ending), body.after)

end NodeFlow.Document
