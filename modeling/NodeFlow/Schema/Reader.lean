import NodeFlow.Schema.Numeral
import NodeFlow.Value.Dtype

/-!
# Reading parts of a document

Readers for the parts that documents are made of. Texts may also be given as bytes, lists as pairs
or sets, and numbers as truth values or as texts. A part of a record may go by several names, of
which the first one present counts.

The readers stand for those of a validation package in its lax mode, and accept and refuse what its
table of conversions says. Two facts are taken from them: a graph is read back from the document
that it makes (`Graph.read_toDocument`), and texts with half of a surrogate pair are refused
(`Session.RefusesHalves`).
-/

namespace NodeFlow.Schema

variable {α : Type}

/-! ### Values of one kind -/

/-- The text that bytes are in UTF-8. -/
def textOfBytes? (bs : List UInt8) : Option String := String.fromUTF8? ⟨bs.toArray⟩

/-- Reads a text. -/
def text : Value → Checked String
  | .str s => .ok s
  | .atom (.broken _) => .fail .notUnicode
  | .atom (.bytes bs) =>
    match textOfBytes? bs with
    | some s => .ok s
    | none => .fail .notUnicode
  | _ => .fail .notText

/-- Reads a text or nothing. -/
def text? : Value → Checked (Option String)
  | .null => .ok none
  | v => (text v).map some

/-- Reads the name of a data type. -/
def dtype : Value → Checked Dtype
  | .str s =>
    match Dtype.ofName? s with
    | some t => .ok t
    | none => .fail .notDtype
  | .atom (.broken _) => .fail .notUnicode
  | _ => .fail .notDtype

/-- Reads a data type or nothing. -/
def dtype? : Value → Checked (Option Dtype)
  | .null => .ok none
  | v => (dtype v).map some

/-- Reads any value. -/
def any (v : Value) : Checked Value := .ok v

/-- The parts of a value that can stand for a list. -/
def items? : Value → Option (List Value)
  | .set members => some (members.map .atom)
  | v => v.items?

/-- Reads a list of parts of one kind. -/
def list (read : Value → Checked α) (v : Value) : Checked (List α) :=
  match items? v with
  | some items => Checked.all (items.mapIdx fun i v => (read v).under (.index i))
  | none => .fail .notList

/-! ### Numbers -/

/-- Reads a double. -/
def double : Value → Checked Float
  | .num x =>
    match x.toFloat? with
    | some y => .ok y
    | none => .fail .notDouble
  | .bool b => .ok (if b then 1 else 0)
  | .str s => readDouble s
  | .atom (.broken _) => .fail .notUnicode
  | .atom (.bytes bs) =>
    match textOfBytes? bs with
    | some s => readDouble s
    | none => .fail .unreadableDouble
  | _ => .fail .notDouble

/-- How many integers of one sign a word of 64 bits holds. -/
def wordHalf : Nat := 0x8000000000000000

/-- Reads an integer. Doubles may be integers as long as these have less than 64 bits. -/
def integer : Value → Checked Int
  | .int n => .ok n
  | .bool b => .ok (if b then 1 else 0)
  | .float x =>
    match Binary.truncate? x with
    | none => .fail .notFinite
    | some n =>
      if !(Number.int n).equals (.float x) then .fail .fractionalInteger
      else if n.natAbs < wordHalf then .ok n
      else .fail .longInteger
  | .str s => readInteger s
  | .atom (.broken _) => .fail .notUnicode
  | .atom (.bytes bs) =>
    match textOfBytes? bs with
    | some s => readInteger s
    | none => .fail .unreadableInteger
  | _ => .fail .notInteger

/-- Reads an integer that is not negative. -/
def natural (v : Value) : Checked Nat := do
  let n ← integer v
  if n < 0 then Checked.fail .tooSmall else return n.toNat

/-! ### Records -/

/-- The step to the value under a key: whole numbers are told as such, other keys by their text. -/
def stepOfKey : Atom → Step
  | .num (.int n) => if -wordHalf ≤ n ∧ n < wordHalf then .index n else .name (toString n)
  | .bool b => .index (if b then 1 else 0)
  | .str s => .name s
  | .broken s => .name (Text.mended s)
  | key => .name key.display

/-- Reads an entry of a record under texts. -/
def entry (read : Value → Checked α) (e : Atom × Value) : Checked (String × α) :=
  match e with
  | (.str key, v) => ((read v).under (.name key)).map fun a => (key, a)
  | (key, v) =>
    let name := (text (.atom key)).under (.name "[key]")
    (name.under (stepOfKey key)).both ((read v).under (stepOfKey key))

/-- Sets what is under a name. A name that is there keeps its place. -/
def putNamed : List (String × α) → String → α → List (String × α)
  | [], name, a => [(name, a)]
  | (n, b) :: rest, name, a => if n = name then (n, a) :: rest else (n, b) :: putNamed rest name a

/-- Reads a record whose keys are texts and whose values are of one kind. Where keys are given as
bytes, two of them may be one text, of which the later one counts. -/
def record (read : Value → Checked α) : Value → Checked (List (String × α))
  | .record entries =>
    let named := Checked.all (entries.map (entry read))
    if entries.all fun e => e.1 matches .str _ then named
    else named.map fun es => es.foldl (fun es (name, a) => putNamed es name a) []
  | _ => .fail .notRecord

/-- The first of some names that a record has, and the value under it. -/
def find? (names : List String) (entries : List (Atom × Value)) : Option (String × Value) :=
  names.findSome? fun name => (Record.get? entries (.str name)).map fun v => (name, v)

/-- Reads a part that must be there. A missing part is reported under its first name. -/
def required (names : List String) (read : Value → Checked α) (entries : List (Atom × Value)) :
    Checked α :=
  match find? names entries with
  | some (name, v) => (read v).under (.name name)
  | none => (Checked.fail .missing).under (.name (names.headD ""))

/-- Reads a part that has a default. -/
def optional (names : List String) (default : α) (read : Value → Checked α)
    (entries : List (Atom × Value)) : Checked α :=
  match find? names entries with
  | some (name, v) => (read v).under (.name name)
  | none => .ok default

/-- Reads a record of named parts. -/
def model (read : List (Atom × Value) → Checked α) : Value → Checked α
  | .record entries => read entries
  | _ => .fail .notModel

/-! ### Whole documents -/

/-- Why a document cannot be read. -/
inductive DocumentError where
  /-- The document is no record of named parts. -/
  | shape
  /-- The parts have issues. -/
  | issues (issues : List Issue)
deriving DecidableEq, Repr

/-- Reads a document, which has to be a record of named parts. -/
def document (read : List (Atom × Value) → Checked α) (v : Value) : Except DocumentError α :=
  let isName : Atom × Value → Bool := fun e => e.1 matches .str _ | .broken _
  match v with
  | .record entries =>
    if entries.all isName then (read entries).mapError .issues else .error .shape
  | _ => .error .shape

end NodeFlow.Schema
