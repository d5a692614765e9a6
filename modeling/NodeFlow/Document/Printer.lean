import NodeFlow.Document.Base64
import NodeFlow.Document.Style

/-!
# Writing documents

A value as the text of a document: one entry or item a line, parts of records two columns further
in, and the items of a list below the key it belongs to. Atoms but texts are written so that they
read as themselves, bytes and sets with a tag, and pairs as lists of two.
-/

namespace NodeFlow.Document

/-- The text of an atom, and how it is written. -/
def atomText (key : Bool) : Atom → String × Style
  | .null => ("null", .plain)
  | .bool b => (if b then "true" else "false", .plain)
  | .num (.int n) => (toString n, .plain)
  | .num (.float x) => (NumberLayout.stored.text x, .plain)
  | .str s => (s, styleOf key s)
  | .broken s => (s, .double)
  | .bytes bs => (String.ofList ("!!binary \"".toList ++ Base64.encode bs ++ ['"']), .plain)
  | .date d => (d.text, .plain)
  | .moment t => (t.textWith " ", .plain)

/-- An atom from a column on. -/
def atomChars (indent column : Nat) (a : Atom) : List Char :=
  let (text, style) := atomText false a
  written style true indent column text

/-- The length of the short form of the tag of an atom. -/
def tagLength : Atom → Nat
  | .null | .bool _ => 6
  | .num (.int _) | .str _ | .broken _ => 5
  | .num (.float _) => 7
  | .bytes _ => 8
  | .date _ | .moment _ => 11

/-- Whether a key may stand before its colon on one line: it is not empty, has no line ends, and is
not long. -/
def isSimpleKey (a : Atom) : Bool :=
  let cs := (atomText true a).1.toList
  !cs.isEmpty && !isMultiline cs && tagLength a + cs.length < 128

/-- A key that stands on one line. -/
def keyChars (a : Atom) : List Char :=
  let (text, style) := atomText true a
  written style false 0 0 text

/-- A member of a set as a key with nothing under it. -/
def member (indent : Nat) (a : Atom) : List Char :=
  if isSimpleKey a then keyChars a ++ ": null".toList
  else
    '?' :: ' ' :: atomChars (indent + 2) (indent + 2) a ++ '\n' :: padding indent
      ++ ": null".toList

/-- A set that starts at an indentation. -/
def setChars (indent : Nat) (members : List Atom) : List Char :=
  if members.isEmpty then "!!set \x7b\x7d".toList
  else
    "!!set".toList ++ members.flatMap fun a => '\n' :: padding indent ++ member indent a

mutual

/-- A value from a column on after its mark, everything below it further in than `indent`. -/
def inner (indent : Nat) : Value → List Char
  | .atom a => atomChars (indent + 2) (indent + 2) a
  | .list [] => ['[', ']']
  | .list (v :: vs) => items (indent + 2) (v :: vs)
  | .pair v w =>
    '-' :: ' ' :: inner (indent + 2) v ++ '\n' :: padding (indent + 2)
      ++ '-' :: ' ' :: inner (indent + 2) w
  | .set members => setChars (indent + 2) members
  | .record [] => ['\x7b', '\x7d']
  | .record (e :: es) => entries (indent + 2) (e :: es)

/-- The items of a list, which stand at an indentation. -/
def items (indent : Nat) : List Value → List Char
  | [] => []
  | [v] => '-' :: ' ' :: inner indent v
  | v :: vs => '-' :: ' ' :: inner indent v ++ '\n' :: padding indent ++ items indent vs

/-- The value of an entry whose key stands on one line and ends before a column. -/
def entryValue (indent column : Nat) : Value → List Char
  | .atom a => ' ' :: atomChars (indent + 2) (column + 2) a
  | .list [] => [' ', '[', ']']
  | .list (v :: vs) => '\n' :: padding indent ++ items indent (v :: vs)
  | .pair v w =>
    '\n' :: padding indent ++ '-' :: ' ' :: inner indent v ++ '\n' :: padding indent
      ++ '-' :: ' ' :: inner indent w
  | .set members => ' ' :: setChars (indent + 2) members
  | .record [] => [' ', '\x7b', '\x7d']
  | .record (e :: es) => '\n' :: padding (indent + 2) ++ entries (indent + 2) (e :: es)

/-- An entry of a record. -/
def entry (indent : Nat) : Atom × Value → List Char
  | (key, v) =>
    if isSimpleKey key then
      let written := keyChars key
      written ++ ':' :: entryValue indent (indent + written.length) v
    else
      '?' :: ' ' :: atomChars (indent + 2) (indent + 2) key ++ '\n' :: padding indent
        ++ ':' :: ' ' :: inner indent v

/-- The entries of a record, which stand at an indentation. -/
def entries (indent : Nat) : List (Atom × Value) → List Char
  | [] => []
  | [e] => entry indent e
  | e :: es => entry indent e ++ '\n' :: padding indent ++ entries indent es

end

/-- A value as the text of a document. A plain text on its own is followed by the mark of the end of
a document. -/
def print (v : Value) : String :=
  match v with
  | .atom a =>
    let (text, style) := atomText false a
    let body := String.ofList (written style true 2 0 text) ++ "\n"
    if style = .plain then body ++ "...\n" else body
  | .list [] => "[]\n"
  | .list vs => String.ofList (items 0 vs) ++ "\n"
  | .pair v w => String.ofList (items 0 [v, w]) ++ "\n"
  | .set members => String.ofList (setChars 0 members) ++ "\n"
  | .record [] => "\x7b\x7d\n"
  | .record es => String.ofList (entries 0 es) ++ "\n"

end NodeFlow.Document
