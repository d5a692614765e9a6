import NodeFlow.Text.Broken
import NodeFlow.Text.Printable

/-!
# Quoted text

Two ways of quoting. `quote` writes a literal of generated code: single quotes, with the backslash,
the quote and the two line ends escaped and everything else as it is. `displayed` writes a text the
way values are shown inside lists and tables: in the kind of quotes that needs no escape where there
is one, and with characters that are not printable by their code. `displayedBytes` shows bytes in
the same way, with all but ASCII characters by their code.
-/

namespace NodeFlow.Text

/-- One character of a literal of generated code. -/
def quoteChar (c : Char) : List Char :=
  match c with
  | '\\' => ['\\', '\\']
  | '\'' => ['\\', '\'']
  | '\n' => ['\\', 'n']
  | '\r' => ['\\', 'r']
  | c => [c]

/-- A text as a literal of generated code. -/
def quote (s : String) : String :=
  String.ofList ('\'' :: s.toList.flatMap quoteChar ++ ['\''])

/-- A number in hexadecimal, filled with zeros to a width. -/
def hexadecimal (width n : Nat) : List Char :=
  let digits := Nat.toDigits 16 n
  List.replicate (width - digits.length) '0' ++ digits

/-- A character by its code, in the shortest of three widths. -/
def codeEscape (c : Char) : List Char :=
  let code := codeOf c
  if code < 0x100 then '\\' :: 'x' :: hexadecimal 2 code
  else if code < 0x10000 then '\\' :: 'u' :: hexadecimal 4 code
  else '\\' :: 'U' :: hexadecimal 8 code

/-- One character of a displayed text inside the given quotes. -/
def displayChar (mark c : Char) : List Char :=
  if c = mark ∨ c = '\\' then ['\\', c]
  else if c = '\n' then ['\\', 'n']
  else if c = '\r' then ['\\', 'r']
  else if c = '\t' then ['\\', 't']
  else if isPrintable c then [c]
  else codeEscape c

/-- The quotes around some characters: double ones only if there are single ones among them and no
double ones. -/
def quoteMark (s : List Char) : Char := if s.contains '\'' && !s.contains '"' then '"' else '\''

/-- A text as it is shown inside a list. -/
def displayed (s : String) : String :=
  let mark := quoteMark s.toList
  String.ofList (mark :: s.toList.flatMap (displayChar mark) ++ [mark])

/-- Bytes as they are shown, each as the character of its code. -/
def displayedBytes (bs : List UInt8) : String :=
  let cs := bs.map fun b => Char.ofNat b.toNat
  let mark := quoteMark cs
  let shown (c : Char) : List Char := if c.toNat < 0x80 then displayChar mark c else codeEscape c
  String.ofList ('b' :: mark :: cs.flatMap shown ++ [mark])

end NodeFlow.Text
