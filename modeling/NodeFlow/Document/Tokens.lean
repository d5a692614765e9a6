import NodeFlow.Document.Scalar

/-!
# The tokens of a text

How a text is cut into tokens. Indentation opens and closes collections, and a part turns out to be
the key of an entry only when the colon after it is found. Until then every such candidate is kept,
and so are the tokens from it on: a token is released once no candidate stands before it. What has
been released stays, even when the text cannot be cut any further.
-/

namespace NodeFlow.Document

/-- A part that may turn out to be a key. -/
structure Candidate where
  /-- The depth of brackets that the part stands in. -/
  depth : Int
  /-- How many tokens come before the part. -/
  number : Nat
  /-- Whether only a key may stand at its place. -/
  required : Bool
  index : Nat
  line : Nat
  column : Nat

/-- How far a text has been cut. -/
structure Layout where
  cursor : Cursor
  /-- The depth of brackets; more brackets closed than opened count as being inside, too. -/
  depth : Int
  /-- The indentation of the innermost block, below zero outside all. -/
  indent : Int
  /-- The indentations of the blocks around it. -/
  outer : List Int
  /-- Whether a key may start here. -/
  keyAllowed : Bool
  candidates : List Candidate
  /-- How many tokens have been released. -/
  released : Nat
  /-- The tokens that have not been released. -/
  queue : List Token
  /-- Whether the end of the text has been reached. -/
  finished : Bool

namespace Layout

/-- The layout before a whole text. -/
def start (text : List Char) : Layout :=
  ⟨.start text, 0, -1, [], true, [], 0, [], false⟩

/-- Whether the place is inside brackets. -/
def inFlow (s : Layout) : Bool := s.depth != 0

/-- The layout with one more token, at a later place. -/
def push (s : Layout) (t : Token) (c : Cursor) : Layout :=
  { s with queue := s.queue ++ [t], cursor := c }

/-! ### Candidates for keys -/

/-- Whether a candidate can no longer be a key: keys stand on one line and are not long. -/
def isStale (s : Layout) (k : Candidate) : Bool :=
  k.line != s.cursor.line || 1024 < s.cursor.index - k.index

/-- The layout without some candidates; none of them may be required. -/
def drop (s : Layout) (p : Candidate → Bool) : Except Fault Layout :=
  if s.candidates.any fun k => p k && k.required then .error .token
  else .ok { s with candidates := s.candidates.filter (!p ·) }

/-- The layout without the candidates that can no longer be keys. -/
def dropStale (s : Layout) : Except Fault Layout := s.drop s.isStale

/-- The layout without the candidate at the present depth of brackets. -/
def dropHere (s : Layout) : Except Fault Layout := s.drop (·.depth == s.depth)

/-- The layout in which the next token is a candidate, if a key may start here. -/
def propose (s : Layout) : Except Fault Layout :=
  if s.keyAllowed then do
    let s ← s.dropHere
    let c := s.cursor
    let k : Candidate := ⟨s.depth, s.released + s.queue.length, !s.inFlow && s.indent == c.column,
      c.index, c.line, c.column⟩
    return { s with candidates := s.candidates ++ [k] }
  else .ok s

/-! ### Indentation -/

/-- The blocks left open at a column, and the number of those it closes. -/
def unwind (column : Int) : Int → List Int → Int × List Int × Nat
  | indent, [] => (indent, [], 0)
  | indent, next :: outer =>
    if column < indent then
      let (indent, outer, closed) := unwind column next outer
      (indent, outer, closed + 1)
    else (indent, next :: outer, 0)

/-- The layout after the blocks have been closed that are further in than a column. -/
def closeTo (s : Layout) (column : Int) : Layout :=
  if s.inFlow then s
  else
    let (indent, outer, closed) := unwind column s.indent s.outer
    { s with indent, outer, queue := s.queue ++ List.replicate closed .blockEnd }

/-- The layout with a block opened at a column, its first token at the given place of the queue,
unless the innermost block is as far in. -/
def openAt (s : Layout) (column position : Nat) (t : Token) : Layout :=
  if !s.inFlow && s.indent < column then
    { s with
      indent := column
      outer := s.indent :: s.outer
      queue := s.queue.take position ++ t :: s.queue.drop position }
  else s

/-! ### Taking the next token -/

/-- The place of the next token, and whether lines end before it. -/
def nextPlace (c : Cursor) : Cursor × Bool :=
  match _h : c.skipSpaces.skipComment.takeBreak? with
  | some (_, after) => ((nextPlace after).1, true)
  | none => (c.skipSpaces.skipComment, false)
termination_by c.left
decreasing_by
  exact Nat.lt_of_lt_of_le (Cursor.left_takeBreak?_lt _h)
    (Nat.le_trans (Cursor.left_skipComment_le _) (c.left_skipWhile_le _))

/-- The layout at the place of the next token. -/
def skipGap (s : Layout) : Layout :=
  let c := s.cursor
  let c := if c.index = 0 ∧ c.next = some '\uFEFF' then c.step else c
  let (c, ended) := nextPlace c
  { s with cursor := c, keyAllowed := s.keyAllowed || (ended && !s.inFlow) }

/-- Ends the text. -/
def takeFinish (s : Layout) : Except Fault Layout := do
  let s ← (s.closeTo (-1)).dropHere
  return { s.push .finish s.cursor with keyAllowed := false, candidates := [], finished := true }

/-- Takes a directive. -/
def takeDirective (s : Layout) : Except Fault Layout := do
  let s ← (s.closeTo (-1)).dropHere
  let (d, c) ← directive s.cursor
  return { s.push (.directive d) c with keyAllowed := false }

/-- Takes a line that separates documents. -/
def takeSeparator (s : Layout) (t : Token) : Except Fault Layout := do
  let s ← (s.closeTo (-1)).dropHere
  return { s.push t (s.cursor.advance 3) with keyAllowed := false }

/-- Takes an opening bracket, which may start a key. -/
def takeOpening (s : Layout) (t : Token) : Except Fault Layout := do
  let s ← s.propose
  return { s.push t s.cursor.step with depth := s.depth + 1, keyAllowed := true }

/-- Takes a closing bracket. -/
def takeClosing (s : Layout) (t : Token) : Except Fault Layout := do
  let s ← s.dropHere
  return { s.push t s.cursor.step with depth := s.depth - 1, keyAllowed := false }

/-- Takes a comma. -/
def takeComma (s : Layout) : Except Fault Layout := do
  let s ← s.dropHere
  return { s.push .flowEntry s.cursor.step with keyAllowed := true }

/-- Takes the mark of an item. -/
def takeItem (s : Layout) : Except Fault Layout := do
  if !s.inFlow && !s.keyAllowed then throw .token
  let s ← (s.openAt s.cursor.column s.queue.length .blockSequence).dropHere
  return { s.push .blockEntry s.cursor.step with keyAllowed := true }

/-- Takes the mark of a key. -/
def takeKey (s : Layout) : Except Fault Layout := do
  if !s.inFlow && !s.keyAllowed then throw .token
  let s ← (s.openAt s.cursor.column s.queue.length .blockMapping).dropHere
  return { s.push .key s.cursor.step with keyAllowed := !s.inFlow }

/-- Takes the mark of a value. A candidate at this depth was a key, and is marked as one. -/
def takeValue (s : Layout) : Except Fault Layout :=
  match s.candidates.find? (·.depth == s.depth) with
  | some k =>
    let position := k.number - s.released
    let marked := s.queue.take position ++ Token.key :: s.queue.drop position
    let s := { s with queue := marked, candidates := s.candidates.filter (·.depth != s.depth) }
    let s := s.openAt k.column position .blockMapping
    .ok { s.push .value s.cursor.step with keyAllowed := false }
  | none => do
    if !s.inFlow && !s.keyAllowed then throw .token
    let s ← (s.openAt s.cursor.column s.queue.length .blockMapping).dropHere
    return { s.push .value s.cursor.step with keyAllowed := !s.inFlow }

/-- Takes a token that may be a key or start one. -/
def takePart (s : Layout) (read : Cursor → Except Fault (Token × Cursor)) :
    Except Fault Layout := do
  let s ← s.propose
  let (t, c) ← read s.cursor
  return { s.push t c with keyAllowed := false }

/-- Takes a text in quotes. -/
def takeQuoted (s : Layout) (double : Bool) : Except Fault Layout :=
  s.takePart fun c => (quoted double c).map fun (text, c) => (.scalar text false, c)

/-- Takes a block of lines. -/
def takeBlock (s : Layout) (folded : Bool) : Except Fault Layout := do
  let s ← s.dropHere
  let (text, c) ← block folded s.indent s.cursor
  return { s.push (.scalar text false) c with keyAllowed := true }

/-- Takes a plain text. -/
def takePlain (s : Layout) : Except Fault Layout := do
  let s ← s.propose
  let (text, c, ended) := plain s.inFlow (s.indent + 1) s.cursor
  return { s.push (.scalar text true) c with keyAllowed := ended }

/-- Whether a plain text may start at a place. -/
def startsPlain (s : Layout) : Bool :=
  match s.cursor.next with
  | none => false
  | some ch =>
    !(isGap (some ch) || "-?:,[]\x7b\x7d#&*!|>'\"%@`".toList.contains ch)
      || (!isGap (s.cursor.ahead 1) && (ch == '-' || (!s.inFlow && (ch == '?' || ch == ':'))))

/-- Takes the next token. -/
def take (s : Layout) : Except Fault Layout := do
  let s ← s.skipGap.dropStale
  let s := s.closeTo s.cursor.column
  let c := s.cursor
  let atGap := isGap (c.ahead 1)
  let newLine := c.column == 0
  match c.next with
  | none => s.takeFinish
  | some ch =>
    if ch = '%' && newLine then s.takeDirective
    else if newLine && c.atSeparator then
      s.takeSeparator (if ch = '-' then .documentStart else .documentEnd)
    else
      match ch with
      | '[' => s.takeOpening .flowSequence
      | '\x7b' => s.takeOpening .flowMapping
      | ']' => s.takeClosing .flowSequenceEnd
      | '\x7d' => s.takeClosing .flowMappingEnd
      | ',' => s.takeComma
      | '*' => s.takePart fun c => (anchorName c).map fun (name, c) => (.alias name, c)
      | '&' => s.takePart fun c => (anchorName c).map fun (name, c) => (.anchor name, c)
      | '!' => s.takePart tag
      | '\'' => s.takeQuoted false
      | '"' => s.takeQuoted true
      | _ =>
        if ch = '-' && atGap then s.takeItem
        else if ch = '?' && (s.inFlow || atGap) then s.takeKey
        else if ch = ':' && (s.inFlow || atGap) then s.takeValue
        else if ch = '|' && !s.inFlow then s.takeBlock false
        else if ch = '>' && !s.inFlow then s.takeBlock true
        else if s.startsPlain then s.takePlain
        else throw .token

/-! ### Releasing tokens -/

/-- The tokens at the head of the queue that no candidate stands before, and the layout without
them. -/
def release (s : Layout) : List Token → List Token × Except Fault Layout
  | [] => ([], .ok { s with queue := [] })
  | t :: queue =>
    if s.finished then (t :: queue, .ok { s with queue := [] })
    else
      match s.dropStale with
      | .error e => ([], .error e)
      | .ok s =>
        if s.candidates.any (·.number == s.released) then ([], .ok { s with queue := t :: queue })
        else
          let (others, after) := release { s with released := s.released + 1 } queue
          (t :: others, after)

/-- The tokens from a layout on, and why there are no more of them. Every round but the last reads a
character, so the length of the text is fuel enough. -/
def tokens : Nat → Layout → List Token × Fault
  | 0, _ => ([], .token)
  | fuel + 1, s =>
    match s.take with
    | .error e => ([], e)
    | .ok s =>
      match s.release s.queue with
      | (ready, .error e) => (ready, e)
      | (ready, .ok s) =>
        if s.finished then (ready, .grammar)
        else
          let (others, fault) := tokens fuel s
          (ready ++ others, fault)

end Layout

/-- The tokens of a text, and why there are no more of them. -/
def tokensOf (text : List Char) : List Token × Fault :=
  Layout.tokens (text.length + 2) (.start text)

end NodeFlow.Document
