import NodeFlow.Operator.Aggregate
import NodeFlow.Sequence
import NodeFlow.Value.Order

/-!
# Operators that rearrange lists

Cutting, ordering, thinning and joining. What is no list counts as an empty one.
-/

namespace NodeFlow.Operator

/-! ### Counts and bounds -/

/-- What a value counts as where a count is asked for: the integer at or below its number, and the
default for a number that is not finite. -/
def count (default : Int) (v : Value) : Except EvalFault Int :=
  let x := v.numberOr default
  match x.finite? with
  | none => .error .tooLarge
  | some finite => .ok (if finite then x.floor?.getD default else default)

/-- What a value counts as where a bound is asked for: the integer part of its number, and no bound
for nothing or a number that is not finite. -/
def bound (v : Value) : Except EvalFault (Option Int) :=
  match v.asNumber? with
  | none => .ok none
  | some x =>
    match x.finite? with
    | none => .error .tooLarge
    | some finite => .ok (if finite then x.truncate? else none)

/-! ### Cutting -/

/-- The items between two bounds in steps, none for steps of zero. -/
def sliceValue (args : Args) : Except EvalFault Value :=
  match (args "list").items? with
  | some items => do
    let step := (← bound (args "step")).getD 1
    if step = 0 then return .list []
    let start ← bound (args "start")
    let stop ← bound (args "stop")
    return .list (Sequence.slice start stop step items)
  | none => .ok (.list [])

/-- A part of a list. -/
def slice : Operator where
  id := "slice"
  label := "Slice"
  help := "Slice list[start:stop:step]."
  inputs := [listPort, ⟨"start", .number, some "Start"⟩, ⟨"stop", .number, some "Stop"⟩,
    ⟨"step", .number, some "Step"⟩]
  output := ⟨"out", .list, none⟩
  eval := sliceValue
  template := .expression
    [.hole "list", "[", .hole "start", ":", .hole "stop", ":", .hole "step", "]"]

/-- The first items. -/
def take : Operator :=
  onListWith "take" "Take" ⟨"n", .number, some "N"⟩
    (fun list n => (count 0 n).map fun k => .list (list.items.take k.toNat))
    [.hole "list", "[:", .hole "n", "]"] "First N items."

/-- The items after the first ones. -/
def drop : Operator :=
  onListWith "drop" "Drop" ⟨"n", .number, some "N"⟩
    (fun list n => (count 0 n).map fun k => .list (list.items.drop k.toNat))
    [.hole "list", "[", .hole "n", ":]"] "All but the first N items."

/-- A list in chunks of at least one item. -/
def chunkValue (list size : Value) : Except EvalFault Value :=
  match list.items? with
  | some items =>
    (count 1 size).map fun k => .list ((Sequence.chunks (k - 1).toNat items).map .list)
  | none => .ok (.list [])

/-- A list in chunks. -/
def chunk : Operator :=
  onListWith "chunk" "Chunk" ⟨"size", .number, some "Size"⟩ chunkValue
    ["[", .hole "list", "[i:i+", .hole "size", "] for i in range(0, len(", .hole "list", "), ",
      .hole "size", ")]"]
    "Split List into chunks of Size."

/-! ### Ordering -/

/-- The items in the opposite order. -/
def reverse : Operator :=
  onList "reverse" "Reverse" .list (fun list => .ok (.list list.items.reverse))
    [.hole "list", "[::-1]"] "Reverse order of items."

/-- The items in order. Items without an order are put in order by their texts, which they must
have. A pair without an order is looked for among all the items. A sort that only compares some of
them comes upon one as well, unless there are sets or no numbers in the items: then an order between
others does not tell of the pair. -/
def sorted (descending : Bool) (list : Value) : Except EvalFault Value :=
  if Value.allComparable list.items || list.isWritable then
    .ok (.list (Value.sort descending list.items))
  else .error .tooManyDigits

/-- The items in order, the least first. -/
def sortAscending : Operator :=
  onList "sort_asc" "Sort asc" .list (sorted false) ["sorted(", .hole "list", ")"]
    "Sort ascending."

/-- The items in order, the greatest first. -/
def sortDescending : Operator :=
  onList "sort_desc" "Sort desc" .list (sorted true) ["sorted(", .hole "list", ", reverse=True)"]
    "Sort descending."

/-! ### Thinning -/

/-- The first of each class of strictly equal items. -/
def unique : Operator :=
  onList "unique" "Unique" .list
    (fun list => .ok (.list (Sequence.distinct Value.strictEquals list.items)))
    ["list(dict.fromkeys(", .hole "list", "))"] "Remove duplicates, preserving order."

/-- The items that are strictly equal to a value. -/
def filterEqual : Operator :=
  onListWith "filter_eq" "Filter ==" ⟨"value", .any, some "Value"⟩
    (fun list value => .ok (.list (list.items.filter (·.strictEquals value))))
    ["[x for x in ", .hole "list", " if x == ", .hole "value", "]"] "Keep items equal to Value."

/-! ### Joining -/

/-- Two values as a list. -/
def listOfTwo (v w : Value) : Value := .list [v, w]

/-- The items of two lists two by two, as many as the shorter one has. -/
def zip : Operator where
  id := "zip"
  label := "Zip"
  help := "Zip two lists into pairs."
  inputs := [⟨"a", .list, some "A"⟩, ⟨"b", .list, some "B"⟩]
  output := ⟨"out", .list, none⟩
  eval := fun args => .ok (.list (List.zipWith listOfTwo (args "a").items (args "b").items))
  template := .expression ["list(zip(", .hole "a", ", ", .hole "b", "))"]

/-- The items with their places. -/
def enumerate : Operator :=
  onList "enumerate" "Enumerate" .list
    (fun list => .ok (.list (list.items.mapIdx fun i x => listOfTwo (.int i) x)))
    ["list(enumerate(", .hole "list", "))"] "Pairs of (index, value)."

/-- The list in which each item that is a list gives way to its items. -/
def flatten : Operator where
  id := "flatten"
  label := "Flatten"
  help := "Flatten one level (list of lists to list)."
  inputs := [⟨"list", .list, some "List of Lists"⟩]
  output := ⟨"out", .list, none⟩
  eval := fun args => .ok (.list ((args "list").items.flatMap fun x => x.items?.getD [x]))
  template := .expression ["[y for x in ", .hole "list", " for y in x]"]

/-- A value so many times, within the limit. -/
def repetition : Operator where
  id := "repeat"
  label := "Repeat"
  help := "Repeat Value Count times."
  inputs := [⟨"value", .any, some "Value"⟩, ⟨"count", .number, some "Count"⟩]
  output := ⟨"out", .list, none⟩
  eval := fun args =>
    (count 0 (args "count")).map fun k =>
      .list (List.replicate (min itemLimit k.toNat) (args "value"))
  template := .expression ["[", .hole "value", "] * ", .hole "count"]

end NodeFlow.Operator
