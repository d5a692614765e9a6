import NodeFlow.Document.Outline
import NodeFlow.Document.Tokens

/-!
# Arranging tokens

The tokens of a text arranged in the outline of a document. A part with an anchor has one more place
wherever its alias stands, which may be inside the part. A text holds one document: a second one is
a fault.
-/

namespace NodeFlow.Document

/-- What is left of the tokens, and what has been found out on the way. -/
structure Reading where
  tokens : List Token
  /-- Why there are no more tokens. -/
  fault : Fault
  /-- What the handles of tags stand for. -/
  handles : List (String × String)
  /-- The parts by number; one that has not ended is not yet known. -/
  parts : Array (Option Part)
  /-- The numbers of the parts that have ended, the last one first. -/
  ended : List PartId
  /-- The parts with an anchor. -/
  anchors : List (String × PartId)
  /-- Whether an alias has been found inside the part it refers to. -/
  circular : Bool

/-- A step in the arrangement of tokens. -/
abbrev Arrange := StateT Reading (Except Fault)

namespace Arrange

/-- The next token. -/
def peek : Arrange Token := do
  let s ← get
  match s.tokens with
  | t :: _ => return t
  | [] => throw s.fault

/-- Goes past the next token. -/
def skip : Arrange Unit := modify fun s => { s with tokens := s.tokens.tail }

/-- Goes past the next token, which has to be the given one. -/
def expect (t : Token) : Arrange Unit := do
  if (← peek) = t then skip else throw .grammar

/-! ### Tags and anchors -/

/-- The handles that need no directive. -/
def commonHandles : List (String × String) := [("!", "!"), ("!!", Tag.vocabulary)]

/-- The full name of a tag. -/
def fullTag (handle : Option String) (suffix : String) : Arrange String := do
  match handle with
  | none => return suffix
  | some h =>
    match (← get).handles.lookup h with
    | some uri => return uri ++ suffix
    | none => throw .grammar

/-- The anchor and the tag before a part, in either order. -/
def properties : Arrange (Option String × Option String) := do
  match ← peek with
  | .anchor name =>
    skip
    match ← peek with
    | .tag handle suffix => skip; return (some name, some (← fullTag handle suffix))
    | _ => return (some name, none)
  | .tag handle suffix =>
    skip
    match ← peek with
    | .anchor name => skip; return (some name, some (← fullTag handle suffix))
    | _ => return (none, some (← fullTag handle suffix))
  | _ => return (none, none)

/-- The number of a part that begins. No two parts have the same anchor. -/
def start (anchor : Option String) : Arrange PartId := do
  if let some name := anchor then
    if ((← get).anchors.lookup name).isSome then throw .reference
  modifyGet fun s =>
    let id := s.parts.size
    (id, { s with
      parts := s.parts.push none
      anchors := (anchor.map fun name => (name, id)).toList ++ s.anchors })

/-- Notes what a part turned out to be at its end. -/
def finish (id : PartId) (part : Part) : Arrange PartId := do
  modify fun s =>
    { s with parts := s.parts.setIfInBounds id (some part), ended := id :: s.ended }
  return id

/-- A part without parts of its own. -/
def leaf (anchor : Option String) (part : Part) : Arrange PartId := do
  finish (← start anchor) part

/-- A part that is left out together with its tag. -/
def nothing : Arrange PartId := leaf none .null

/-- The part that an alias refers to. -/
def dereference (name : String) : Arrange PartId := do
  match (← get).anchors.lookup name with
  | none => throw .reference
  | some id =>
    modify fun s => { s with circular := s.circular || (s.parts.getD id none).isNone }
    return id

/-- The tag of a list or a record, given in full or not at all. -/
def collectionTag (default : Tag) : Option String → Tag
  | none | some "!" => default
  | some uri => .ofUri uri

/-- The tag of a text, which tells itself when it is plain and without a tag. -/
def scalarTag (text : String) (plain : Bool) : Option String → Tag
  | none => if plain then implicitTag text else .str
  | some "!" => implicitTag text
  | some uri => .ofUri uri

/-! ### Parts -/

mutual

/-- A part. Outside brackets it may be told by indentation, and as a value of a record it may be a
list that is no further in than the record. -/
def part (block level : Bool) : Nat → Arrange PartId
  | 0 => throw .grammar
  | fuel + 1 => do
    if let .alias name ← peek then
      skip
      return ← dereference name
    let (anchor, tag) ← properties
    match ← peek with
    | .scalar text plain =>
      skip
      leaf anchor (.scalar (scalarTag text plain tag) text)
    | .flowSequence =>
      let id ← start anchor
      skip
      finish id (.list (collectionTag .list tag) (← flowItems fuel true))
    | .flowMapping =>
      let id ← start anchor
      skip
      finish id (.record (collectionTag .record tag) (← flowEntries fuel true))
    | .blockEntry =>
      if level then
        let id ← start anchor
        finish id (.list (collectionTag .list tag) (← levelItems fuel))
      else omitted anchor tag
    | .blockSequence =>
      if block then
        let id ← start anchor
        skip
        finish id (.list (collectionTag .list tag) (← blockItems fuel))
      else omitted anchor tag
    | .blockMapping =>
      if block then
        let id ← start anchor
        skip
        finish id (.record (collectionTag .record tag) (← blockEntries fuel))
      else omitted anchor tag
    | _ => omitted anchor tag

/-- A part that is left out, which only one with an anchor or a tag may be. -/
def omitted (anchor tag : Option String) : Arrange PartId := do
  if anchor.isNone && tag.isNone then throw .grammar
  leaf anchor (.scalar (scalarTag "" true tag) "")

/-- The items of a list told by indentation. -/
def blockItems : Nat → Arrange (List PartId)
  | 0 => throw .grammar
  | fuel + 1 => do
    match ← peek with
    | .blockEntry =>
      skip
      let item ← match ← peek with
        | .blockEntry | .blockEnd => nothing
        | _ => part true false fuel
      return item :: (← blockItems fuel)
    | .blockEnd => skip; return []
    | _ => throw .grammar

/-- The items of a list that is no further in than its record. -/
def levelItems : Nat → Arrange (List PartId)
  | 0 => throw .grammar
  | fuel + 1 => do
    match ← peek with
    | .blockEntry =>
      skip
      let item ← match ← peek with
        | .blockEntry | .key | .value | .blockEnd => nothing
        | _ => part true false fuel
      return item :: (← levelItems fuel)
    | _ => return []

/-- A key or a value of a record told by indentation, after its mark. -/
def blockHalf : Nat → Arrange PartId
  | 0 => throw .grammar
  | fuel + 1 => do
    match ← peek with
    | .key | .value | .blockEnd => nothing
    | _ => part true true fuel

/-- The entries of a record told by indentation. -/
def blockEntries : Nat → Arrange (List (PartId × PartId))
  | 0 => throw .grammar
  | fuel + 1 => do
    match ← peek with
    | .key =>
      skip
      let key ← blockHalf fuel
      let value ← match ← peek with
        | .value => skip; blockHalf fuel
        | _ => nothing
      return (key, value) :: (← blockEntries fuel)
    | .blockEnd => skip; return []
    | _ => throw .grammar

/-- A key or a value in brackets, after its mark. -/
def flowHalf (closing : Token) : Nat → Arrange PartId
  | 0 => throw .grammar
  | fuel + 1 => do
    let t ← peek
    if t = .value ∨ t = .flowEntry ∨ t = closing then nothing
    else part false false fuel

/-- The value after a key in brackets, if it has a mark. -/
def flowValue (closing : Token) : Nat → Arrange PartId
  | 0 => throw .grammar
  | fuel + 1 => do
    match ← peek with
    | .value =>
      skip
      let t ← peek
      if t = .flowEntry ∨ t = closing then nothing
      else part false false fuel
    | _ => nothing

/-- The items of a list in brackets. An item with a key is a record of that one entry. -/
def flowItems : Nat → Bool → Arrange (List PartId)
  | 0, _ => throw .grammar
  | fuel + 1, first => do
    if (← peek) = .flowSequenceEnd then
      skip
      return []
    if !first then expect .flowEntry
    match ← peek with
    | .key =>
      skip
      let key ← flowHalf .flowSequenceEnd fuel
      let value ← flowValue .flowSequenceEnd fuel
      let item ← leaf none (.record .record [(key, value)])
      return item :: (← flowItems fuel false)
    | .flowSequenceEnd => skip; return []
    | _ =>
      let item ← part false false fuel
      return item :: (← flowItems fuel false)

/-- The entries of a record in brackets. -/
def flowEntries : Nat → Bool → Arrange (List (PartId × PartId))
  | 0, _ => throw .grammar
  | fuel + 1, first => do
    if (← peek) = .flowMappingEnd then
      skip
      return []
    if !first then expect .flowEntry
    match ← peek with
    | .key =>
      skip
      let key ← flowHalf .flowMappingEnd fuel
      let value ← flowValue .flowMappingEnd fuel
      return (key, value) :: (← flowEntries fuel false)
    | .flowMappingEnd => skip; return []
    | _ =>
      let key ← part false false fuel
      let value ← nothing
      return (key, value) :: (← flowEntries fuel false)

end

/-! ### Documents -/

/-- The directives before a document. There is at most one version, the first of the notation, and
one directive for each handle. -/
def directives : Nat → Bool → Arrange Unit
  | 0, _ => throw .grammar
  | fuel + 1, versioned => do
    match ← peek with
    | .directive d =>
      skip
      match d with
      | .version major _ =>
        if versioned || major != 1 then throw .grammar
        directives fuel true
      | .handle name uri =>
        let s ← get
        if (s.handles.lookup name).isSome then throw .grammar
        set { s with handles := (name, uri) :: s.handles }
        directives fuel versioned
      | .other => directives fuel versioned
    | _ => return

/-- The start of a document with its directives. -/
def documentHead (fuel : Nat) : Arrange Unit := do
  directives fuel false
  modify fun s => { s with handles := s.handles ++ commonHandles }
  expect .documentStart

/-- Goes past the marks of the end of a document. -/
def skipEnds : Nat → Arrange Unit
  | 0 => throw .grammar
  | fuel + 1 => do
    if (← peek) = .documentEnd then
      skip
      skipEnds fuel

/-- The contents of a document after its start. -/
def documentBody (fuel : Nat) : Arrange PartId := do
  match ← peek with
  | .directive _ | .documentStart | .documentEnd | .finish => nothing
  | _ => part true false fuel

/-- The end of the one document of a text. -/
def documentTail (fuel : Nat) : Arrange Unit := do
  skipEnds fuel
  if (← peek) = .finish then return
  modify fun s => { s with handles := [] }
  documentHead fuel
  throw .reference

/-- The part that the document of a text is; nothing when there is no document. -/
def document (fuel : Nat) : Arrange (Option PartId) := do
  match ← peek with
  | .finish => return none
  | .directive _ | .documentStart =>
    documentHead fuel
    let root ← documentBody fuel
    documentTail fuel
    return some root
  | _ =>
    modify fun s => { s with handles := commonHandles }
    let root ← part true false fuel
    documentTail fuel
    return some root

end Arrange

/-- The outline of the document in a text; nothing when there is no document. No part is arranged
twice, and at most three steps come between two tokens, which bounds the fuel. -/
def outlineOf (text : List Char) : Except Fault (Option Outline) := do
  let (tokens, fault) := tokensOf text
  let start : Reading := ⟨tokens, fault, [], #[], [], [], false⟩
  let (root?, s) ← (Arrange.document (4 * tokens.length + 8)).run start
  return root?.map fun root => ⟨s.parts.map (·.getD .null), s.ended.reverse, root, s.circular⟩

end NodeFlow.Document
