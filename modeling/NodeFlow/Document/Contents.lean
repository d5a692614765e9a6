import NodeFlow.Document.Arrange
import NodeFlow.Document.Atom

/-!
# The contents of a document

The value that the outline of a document stands for. Contents are found from the top down: first
what the outermost part is, then what its parts are, and so on, one part after the other, so that of
several faults the one nearest to the top is told. A record takes the entries that are merged into
it before its own, a key that comes twice keeps its first place and its last value, and keys are
atoms.

This reader and the printer stand for those of a document package. That what is printed of a value
is read as that value again is documented of them for values of these kinds. Where a graph is said
to be loaded as it was saved, this is a hypothesis (`Graph.ofText_toText`).
-/

namespace NodeFlow.Document

/-- What a part has been found to hold. -/
inductive Content where
  | atom (a : Atom)
  | list (items : List PartId)
  | pairs (pairs : List (PartId × PartId))
  | set (members : List Atom)
  | record (entries : List (Atom × PartId))

/-- How far the contents of a document are known. -/
structure Findings where
  /-- The parts by number, as far as merging has changed them. -/
  parts : Array Part
  /-- What the parts hold. One that has been met but not yet entered is there without its parts. -/
  contents : Array (Option Content)
  /-- The parts that have been met but not yet entered, the last one first. -/
  waiting : List PartId

/-- A step in finding out contents. -/
abbrev Find := StateT Findings (Except Fault)

namespace Find

/-- A part by its number. -/
def part (id : PartId) : Find Part := do return (← get).parts.getD id .null

/-- Changes a part. -/
def change (id : PartId) (f : Part → Part) : Find Unit :=
  modify fun s => { s with parts := s.parts.modify id f }

/-- Notes what a part holds. -/
def note (id : PartId) (content : Content) : Find Unit :=
  modify fun s => { s with contents := s.contents.setIfInBounds id (some content) }

/-! ### Merging -/

/-- Whether the key of an entry has a tag. -/
def hasKeyTag (parts : Array Part) (tag : Tag) (entry : PartId × PartId) : Bool :=
  (parts.getD entry.1 .null).tag = tag

/-- Takes the first merge key out of a record, and gives what is to be merged. -/
def takeMerge? (id : PartId) : Find (Option PartId) :=
  modifyGet fun s =>
    let entries := (s.parts.getD id .null).entries
    let isOwn (entry : PartId × PartId) : Bool := !hasKeyTag s.parts .merge entry
    match entries.dropWhile isOwn with
    | [] => (none, s)
    | (_, value) :: rest =>
      let others := entries.takeWhile isOwn ++ rest
      (some value, { s with parts := s.parts.modify id fun p => .record p.tag others })

/-- The parts of what is to be merged, each of which has to be a record. -/
def mergedParts (id : PartId) : Find (List PartId) := do
  match ← part id with
  | .record .. => return [id]
  | .list _ items => return items
  | .scalar .. => throw .content

/-- Turns the keys of a record that would stand for its value into texts. -/
def nameValueKeys (id : PartId) : Find Unit := do
  let parts := (← get).parts
  let keys := (parts.getD id .null).entries.filter (hasKeyTag parts .value)
  keys.forM fun entry => change entry.1 (.withTag .str)

/-- Puts the entries that are merged into a record before its own, those of later records in a list
before those of earlier ones. What is merged takes up its own merges first. Every level takes out a
merge key, so there are no more levels than there are entries. -/
def merge : Nat → PartId → Find Unit
  | 0, _ => throw .content
  | fuel + 1, id => do
    match ← takeMerge? id with
    | none => nameValueKeys id
    | some merged =>
      let given ← (← mergedParts merged).mapM fun other => do
        if !((← part other) matches .record ..) then throw .content
        merge fuel other
        return (← part other).entries
      merge fuel id
      change id fun p => .record p.tag (given.reverse.flatten ++ p.entries)

/-! ### Meeting and entering parts -/

/-- The text that a part with the tag of an atom gives: its own, or that of the value which stands
for its record. -/
def text : Nat → PartId → Find String
  | 0, _ => throw .content
  | fuel + 1, id => do
    match ← part id with
    | .scalar _ s => return s
    | .list .. => throw .content
    | .record _ entries =>
      match entries.find? (hasKeyTag (← get).parts .value) with
      | some (_, value) => text fuel value
      | none => throw .content

/-- The atom that a part with the tag of an atom is. -/
def atom (id : PartId) : Find Atom := do
  let p ← part id
  let s ← text ((← get).parts.size + 1) id
  if p.tag = .timestamp && !(p matches .scalar ..) then throw .dateRecord
  atomOf p.tag s

/-- Puts a part off. -/
def wait (id : PartId) (content : Content) : Find Unit := do
  note id content
  modify fun s => { s with waiting := id :: s.waiting }

/-- Meets a part: notes the atom that it is, or puts it off when it has parts of its own. -/
def meet (id : PartId) : Find Unit := do
  if ((← get).contents.getD id none).isSome then return
  match (← part id).tag with
  | .list | .pairs => wait id (.list [])
  | .set => wait id (.set [])
  | .record => wait id (.record [])
  | _ => note id (.atom (← atom id))

/-- Meets a key, which has to be an atom. -/
def meetKey (id : PartId) : Find Atom := do
  meet id
  match (← get).contents.getD id none with
  | some (.atom a) => return a
  | _ => throw .content

/-- Meets the key and the value of an entry. -/
def meetEntry (entry : PartId × PartId) : Find (Atom × PartId) := do
  let key ← meetKey entry.1
  meet entry.2
  return (key, entry.2)

/-- Meets the two parts of a pair, which is a record with that one entry. -/
def meetPair (id : PartId) : Find (PartId × PartId) := do
  match ← part id with
  | .record _ [(key, value)] =>
    meet key
    meet value
    return (key, value)
  | _ => throw .content

/-- Enters a part that has been put off, and meets its parts. -/
def enter (fuel : Nat) (id : PartId) : Find Unit := do
  let p ← part id
  match p, p.tag with
  | .list _ items, .list =>
    items.forM meet
    note id (.list items)
  | .list _ items, .pairs => note id (.pairs (← items.mapM meetPair))
  | .record .., .record =>
    merge fuel id
    note id (.record (Record.ofEntries (← (← part id).entries.mapM meetEntry)))
  | .record .., .set =>
    merge fuel id
    let entries := Record.ofEntries (← (← part id).entries.mapM meetEntry)
    note id (.set (entries.map (·.1)))
  | _, _ => throw .content

/-- Enters the parts that have been put off, and then those that have been put off in doing so,
until there are none left. Each part is put off only once. -/
def enterAll (mergeFuel : Nat) : Nat → Find Unit
  | 0 => return
  | fuel + 1 => do
    let waiting ← modifyGet fun s => (s.waiting, { s with waiting := [] })
    if !waiting.isEmpty then
      waiting.reverse.forM (enter mergeFuel)
      enterAll mergeFuel fuel

end Find

/-! ### Values -/

/-- The value of what a part holds, given the values of its parts. -/
def Content.value (values : Array Value) : Content → Value
  | atom a => .atom a
  | list items => .list (items.map (values.getD · .null))
  | pairs ps => .list (ps.map fun (k, v) => .pair (values.getD k .null) (values.getD v .null))
  | set members => .set members
  | record entries => .record (entries.map fun (key, v) => (key, values.getD v .null))

/-- The values of parts after one more look at each of them, in the order in which they end. A part
then has its value, unless it lies inside itself: there it has the value from the last time. -/
def valuesAgain (order : List PartId) (contents : Array (Option Content)) (values : Array Value) :
    Array Value :=
  order.foldl (fun values id =>
    match contents.getD id none with
    | some content => values.setIfInBounds id (content.value values)
    | none => values) values

/-- How often a part that lies inside itself is unfolded; the innermost of them is left out. No
reader of documents looks that deep. -/
def unfoldings : Nat := 8

namespace Outline

/-- How many entries the records of a document have. -/
def entryCount (o : Outline) : Nat := o.parts.foldl (fun n p => n + p.entries.length) 0

/-- The value that an outline stands for. -/
def value (o : Outline) : Except Fault Value := do
  let find : Find Unit := do
    Find.meet o.root
    Find.enterAll (o.entryCount + 1) (o.parts.size + 1)
  let (_, found) ← find.run ⟨o.parts, Array.replicate o.parts.size none, []⟩
  let start := Array.replicate o.parts.size Value.null
  let rounds := if o.circular then unfoldings else 1
  return (Nat.repeat (valuesAgain o.order found.contents) rounds start).getD o.root .null

end Outline

/-! ### Documents -/

/-- Whether a document may hold a character. -/
def mayHold (c : Char) : Bool :=
  CharRanges.has [(0x9, 0xA), (0xD, 0xD), (0x20, 0x7E), (0x85, 0x85), (0xA0, 0xD7FF),
    (0xE000, 0xFFFD), (0x10000, 0x10FFFF)] c

/-- A text in which every line ends with a line feed alone. -/
def withLineFeeds : List Char → List Char
  | [] => []
  | '\r' :: '\n' :: rest => '\n' :: withLineFeeds rest
  | c :: rest => (if c = '\r' then '\n' else c) :: withLineFeeds rest

/-- The value of the document in a text; nothing when there is no document. -/
def read (text : String) : Except Fault Value := do
  let s := withLineFeeds text.toList
  if !s.all mayHold then throw .unprintable
  match ← outlineOf s with
  | none => return .null
  | some outline => outline.value

end NodeFlow.Document
