import NodeFlow.Value.Equality
import NodeFlow.Value.Text

/-!
# Sorting values

Numbers and truth values are ordered by value, texts by code points, bytes by value, dates and
moments by time, lists and pairs by their first difference, and sets by inclusion. Values of other
kinds have no order, and neither have values of two kinds. A list in which every two items have one
is sorted by it; any other list is sorted by kind and then by plain text. Both sorts are stable in
either direction.

The order of values with sets or no numbers in them is not a linear one, so that where they end up
depends on which of them a sort compares. What is proved of the places of items leaves them out.
-/

namespace NodeFlow

/-- Whether an atom comes before another, where the two have an order. -/
def Atom.precedes? (a b : Atom) : Option Bool :=
  match a.numeric?, b.numeric? with
  | some x, some y => some (x.below y)
  | _, _ =>
    match a, b with
    | .str s, .str t => some (s < t)
    | .str s, .broken t | .broken s, .str t | .broken s, .broken t =>
      some (Text.codes s < Text.codes t)
    | .bytes bs, .bytes cs => some (bs < cs)
    | .date d, .date e => some (d.order e == .lt)
    | .moment t, .moment u => (t.order? u).map (· == .lt)
    | _, _ => none

namespace Value

mutual

/-- Whether a value comes before another, where the two have an order. -/
def precedes? : Value → Value → Option Bool
  | atom a, atom b => a.precedes? b
  | list xs, list ys => precedesItems? xs ys
  | pair v v', pair w w' =>
    if !v.equals w then v.precedes? w else if !v'.equals w' then v'.precedes? w' else some false
  | set xs, set ys => some (decide (xs.length < ys.length) && subset xs ys)
  | _, _ => none

/-- Whether a list comes before another: at the first unequal items by them, else by length. -/
def precedesItems? : List Value → List Value → Option Bool
  | v :: xs, w :: ys => if v.equals w then precedesItems? xs ys else v.precedes? w
  | xs, ys => some (xs.isEmpty && !ys.isEmpty)

end

/-- Whether a value comes before another; not so when the two have no order. -/
def precedes (v w : Value) : Bool := (v.precedes? w).getD false

/-- Whether two values have an order. -/
def comparable (v w : Value) : Bool := (v.precedes? w).isSome

/-- The kinds of values that have an order among all their own: numbers and truth values together,
and texts. -/
def orderedKind? : Value → Option Kind
  | num _ | bool _ => some .integer
  | str _ => some .text
  | _ => none

/-- Whether every two of the values have an order. Where all are of one ordered kind no pair needs
to be looked at. -/
def allComparable : List Value → Bool
  | [] => true
  | v :: rest =>
    (v.orderedKind?.isSome && rest.all (·.orderedKind? == v.orderedKind?))
      || (rest.all v.comparable && allComparable rest)

/-- What values without an order are sorted by: the name of the kind, then the plain text. -/
def sortKey (v : Value) : String × List Nat := (v.kind.name, Text.codes v.text)

/-- Whether a sort key comes before another. -/
def keyPrecedes (k l : String × List Nat) : Bool := k.1 < l.1 || (k.1 == l.1 && k.2 < l.2)

/-- Sorts stably by a strict order, upward or downward. -/
def sortBy {α : Type} (precedes : α → α → Bool) (descending : Bool) (xs : List α) : List α :=
  xs.mergeSort fun x y => if descending then !precedes x y else !precedes y x

/-- The values in order, upward or downward. -/
def sort (descending : Bool) (xs : List Value) : List Value :=
  if allComparable xs then sortBy precedes descending xs
  else
    let keyed := xs.map fun v => (v.sortKey, v)
    (sortBy (fun x y => keyPrecedes x.1 y.1) descending keyed).map (·.2)

end Value

end NodeFlow
