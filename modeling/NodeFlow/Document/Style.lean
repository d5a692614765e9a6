import NodeFlow.Document.Implicit
import NodeFlow.Text.Quoted
import NodeFlow.Value.Text

/-!
# How texts are written in a document

A text is written plainly where it then reads as itself, in single quotes where that is not so, and
in double quotes where it holds what only an escape can give. A long text is continued on the next
line at a single space, and in double quotes also next to an escape, unless it is a key.
-/

namespace NodeFlow.Document

/-- The ways to write a text. -/
inductive Style where
  | plain
  | single
  | double
deriving DecidableEq, Repr

/-- The column after which a text is continued on the next line. -/
def width : Nat := 80

/-- The spaces before a line. -/
def padding (indent : Nat) : List Char := List.replicate indent ' '

/-! ### Choosing a style -/

/-- Whether a character can be written without double quotes: printable ASCII or a line feed. -/
def isOrdinary (c : Char) : Bool := c == '\n' || (' ' ≤ c && c ≤ '~')

/-- Whether a mark inside a text would be read as the end of a key or the start of a comment. -/
def hasInnerMark : List Char → Bool
  | a :: b :: rest => (a == ':' && b == ' ') || (a == ' ' && b == '#') || hasInnerMark (b :: rest)
  | [c] => c == ':'
  | [] => false

/-- Whether a text begins with a mark of the notation. -/
def hasLeadingMark (s : List Char) : Bool :=
  let leading := s.take 3
  leading == ['-', '-', '-'] || leading == ['.', '.', '.']
    || match s with
      | [] => false
      | c :: rest =>
        "#,[]\x7b\x7d&*!|>'\"%@`".toList.contains c
          || ("?:-".toList.contains c && (rest.isEmpty || rest.head? == some ' '))

/-- Whether a text can be written plainly. -/
def isPlainable (s : List Char) : Bool :=
  !s.isEmpty && s.all (fun c => isOrdinary c && c != '\n') && s.head? != some ' '
    && s.getLast? != some ' ' && !hasLeadingMark s && !hasInnerMark s

/-- Whether a space stands next to a line feed in a text. -/
def hasSpaceAtBreak : List Char → Bool
  | a :: b :: rest =>
    (a == ' ' && b == '\n') || (a == '\n' && b == ' ') || hasSpaceAtBreak (b :: rest)
  | _ => false

/-- Whether a text has a line end. -/
def isMultiline (s : List Char) : Bool := s.any fun c =>
  c == '\n' || c == '\x85' || c == '\u2028' || c == '\u2029'

/-- How a text is written. A key stays on one line. -/
def styleOf (key : Bool) (s : String) : Style :=
  let cs := s.toList
  if implicitTag s == .str && isPlainable cs then .plain
  else if cs.all isOrdinary && !hasSpaceAtBreak cs && !(key && isMultiline cs) then .single
  else .double

/-! ### Writing -/

/-- The runs of spaces, of line feeds and of other characters in a text. -/
def runs (s : List Char) : List (List Char) :=
  s.splitBy fun a b => (a == ' ') == (b == ' ') && (a == '\n') == (b == '\n')

/-- A plain text from a column on, its lines continued at an indentation. -/
def plainRuns (folds : Bool) (indent : Nat) : Nat → List (List Char) → List Char
  | _, [] => []
  | column, run :: rest =>
    if folds && run == [' '] && width < column then
      '\n' :: padding indent ++ plainRuns folds indent indent rest
    else run ++ plainRuns folds indent (column + run.length) rest

/-- The inside of a text in single quotes. A quote is written twice, and so is the first line feed
of several. -/
def singleRuns (folds : Bool) (indent : Nat) : Bool → Nat → List (List Char) → List Char
  | _, _, [] => []
  | first, column, run :: rest =>
    if run.head? = some '\n' then
      '\n' :: run ++ padding indent ++ singleRuns folds indent false indent rest
    else if folds && run == [' '] && !first && !rest.isEmpty && width < column then
      '\n' :: padding indent ++ singleRuns folds indent false indent rest
    else
      let written := run.flatMap fun c => if c = '\'' then ['\'', '\''] else [c]
      written ++ singleRuns folds indent false (column + written.length) rest

/-- The letter that stands for a character in an escape. -/
def escapeLetter? (c : Char) : Option Char :=
  match c with
  | '\x00' => some '0'
  | '\x07' => some 'a'
  | '\x08' => some 'b'
  | '\t' => some 't'
  | '\n' => some 'n'
  | '\x0b' => some 'v'
  | '\x0c' => some 'f'
  | '\r' => some 'r'
  | '\x1b' => some 'e'
  | '"' => some '"'
  | '\\' => some '\\'
  | '\x85' => some 'N'
  | '\xa0' => some '_'
  | '\u2028' => some 'L'
  | '\u2029' => some 'P'
  | _ => none

/-- The escape of a character that needs one inside double quotes. -/
def escaped? (c : Char) : Option (List Char) :=
  let code := Text.codeOf c
  let byCode (letter : Char) (digits : Nat) : List Char :=
    '\\' :: letter :: (Text.hexadecimal digits code).map Char.toUpper
  match escapeLetter? c with
  | some letter => some ['\\', letter]
  | none =>
    if ' ' ≤ c ∧ c ≤ '~' then none
    else if code ≤ 0xFF then some (byCode 'x' 2)
    else if code ≤ 0xFFFF then some (byCode 'u' 4)
    else some (byCode 'U' 8)

/-- The inside of a text in double quotes. `fresh` says that the last character was not written as
it is. A line that is continued ends with a backslash, and a space that it goes on with has one
before it. -/
def doubleChars (folds : Bool) (indent : Nat) : Bool → Bool → Nat → List Char → List Char
  | _, _, _, [] => []
  | first, fresh, column, c :: rest =>
    let mayFold := folds && !first && !rest.isEmpty
    let lineEnd := '\\' :: '\n' :: padding indent
    match escaped? c with
    | some written =>
      let column := column + written.length
      if mayFold && width + 1 < column then
        if rest.head? = some ' ' then
          written ++ lineEnd ++ '\\' :: doubleChars folds indent false true (indent + 1) rest
        else written ++ lineEnd ++ doubleChars folds indent false true indent rest
      else written ++ doubleChars folds indent false true column rest
    | none =>
      if mayFold && (c == ' ' || fresh) && width < column then
        if c = ' ' then
          lineEnd ++ '\\' :: c :: doubleChars folds indent false false (indent + 2) rest
        else lineEnd ++ c :: doubleChars folds indent false false (indent + 1) rest
      else c :: doubleChars folds indent false false (column + 1) rest

/-- A text in a style from a column on. -/
def written (style : Style) (folds : Bool) (indent column : Nat) (s : String) : List Char :=
  let cs := s.toList
  match style with
  | .plain => plainRuns folds indent column (runs cs)
  | .single => '\'' :: singleRuns folds indent true (column + 1) (runs cs) ++ ['\'']
  | .double => '"' :: doubleChars folds indent true true (column + 1) cs ++ ['"']

end NodeFlow.Document
