import NodeFlow.Number.Basic
import NodeFlow.Text.Broken
import NodeFlow.Value.Calendar

/-!
# Values

What flows along the edges of a graph: atoms, lists and records, and from documents also pairs and
sets. A record keeps its entries in the order in which their keys first came; its keys are atoms,
compared by value, so that the keys `1`, `1.0` and `true` are one.
-/

namespace NodeFlow

/-- A value without parts. -/
inductive Atom where
  | null
  | bool (b : Bool)
  | num (x : Number)
  | str (s : String)
  /-- A text with halves of surrogate pairs. -/
  | broken (s : String)
  | bytes (bs : List UInt8)
  | date (d : Date)
  | moment (t : Moment)
deriving DecidableEq

/-- A value: an atom, a list of values, a pair of values, a set of atoms, or a record of values
under atoms. -/
inductive Value where
  | atom (a : Atom)
  | list (items : List Value)
  | pair (first second : Value)
  | set (members : List Atom)
  | record (entries : List (Atom × Value))

namespace Value

/-- The value that stands for nothing. -/
@[match_pattern] abbrev null : Value := atom .null
/-- A truth value. -/
@[match_pattern] abbrev bool (b : Bool) : Value := atom (.bool b)
/-- A number. -/
@[match_pattern] abbrev num (x : Number) : Value := atom (.num x)
/-- An integer. -/
@[match_pattern] abbrev int (n : Int) : Value := num (.int n)
/-- A double. -/
@[match_pattern] abbrev float (x : Float) : Value := num (.float x)
/-- A text. -/
@[match_pattern] abbrev str (s : String) : Value := atom (.str s)

instance : Inhabited Value := ⟨null⟩

end Value

/-! ### Deciding equality of structure -/

mutual

/-- Decides whether two values are the same value. -/
def Value.decEq : (v w : Value) → Decidable (v = w)
  | .atom a, .atom b => if h : a = b then isTrue (by rw [h]) else isFalse (by simp [h])
  | .list xs, .list ys =>
    match decEqItems xs ys with
    | isTrue h => isTrue (by rw [h])
    | isFalse h => isFalse (by simp [h])
  | .pair v v', .pair w w' =>
    match v.decEq w, v'.decEq w' with
    | isTrue h, isTrue g => isTrue (by rw [h, g])
    | isFalse h, _ => isFalse (by simp [h])
    | _, isFalse h => isFalse (by simp [h])
  | .set xs, .set ys => if h : xs = ys then isTrue (by rw [h]) else isFalse (by simp [h])
  | .record xs, .record ys =>
    match decEqEntries xs ys with
    | isTrue h => isTrue (by rw [h])
    | isFalse h => isFalse (by simp [h])
  | .atom _, .list _ | .atom _, .pair .. | .atom _, .set _ | .atom _, .record _
  | .list _, .atom _ | .list _, .pair .. | .list _, .set _ | .list _, .record _
  | .pair .., .atom _ | .pair .., .list _ | .pair .., .set _ | .pair .., .record _
  | .set _, .atom _ | .set _, .list _ | .set _, .pair .. | .set _, .record _
  | .record _, .atom _ | .record _, .list _ | .record _, .pair .. | .record _, .set _ =>
    isFalse (by simp)

/-- Decides whether two lists hold the same values. -/
def Value.decEqItems : (xs ys : List Value) → Decidable (xs = ys)
  | [], [] => isTrue rfl
  | [], _ :: _ | _ :: _, [] => isFalse (by simp)
  | v :: xs, w :: ys =>
    match v.decEq w, decEqItems xs ys with
    | isTrue h, isTrue g => isTrue (by rw [h, g])
    | isFalse h, _ => isFalse (by simp [h])
    | _, isFalse h => isFalse (by simp [h])

/-- Decides whether two records have the same entries in the same order. -/
def Value.decEqEntries : (xs ys : List (Atom × Value)) → Decidable (xs = ys)
  | [], [] => isTrue rfl
  | [], _ :: _ | _ :: _, [] => isFalse (by simp)
  | (j, v) :: xs, (k, w) :: ys =>
    match instDecidableEqAtom j k, v.decEq w, decEqEntries xs ys with
    | isTrue l, isTrue h, isTrue g => isTrue (by rw [l, h, g])
    | isFalse h, _, _ => isFalse (by simp [h])
    | _, isFalse h, _ => isFalse (by simp [h])
    | _, _, isFalse h => isFalse (by simp [h])

end

instance : DecidableEq Value := Value.decEq

namespace Atom

/-- The atom of a text. -/
def ofText (s : String) : Atom := if Text.isBroken s then broken s else str s

/-- The number that an atom counts as where numbers are compared: truth values count as 0 and 1. -/
def numeric? : Atom → Option Number
  | bool b => some (.int (if b then 1 else 0))
  | num x => some x
  | _ => none

/-- Whether two atoms have the same value. A number equals a truth value that counts as it. -/
def equals (a b : Atom) : Bool :=
  match a.numeric?, b.numeric? with
  | some x, some y => x.equals y
  | none, none =>
    match a, b with
    | null, null => true
    | str s, str t => s == t
    | broken s, broken t => s == t
    | bytes bs, bytes cs => bs == cs
    | date d, date e => d == e
    | moment t, moment u => t.order? u == some .eq
    | _, _ => false
  | _, _ => false

/-- Texts have the same value if they are the same. -/
theorem equals_ofText (s t : String) : (ofText s).equals (ofText t) = (s == t) := by
  by_cases h : s = t
  · rw [h, beq_self_eq_true, ofText]
    split <;> exact beq_self_eq_true t
  · rw [beq_eq_false_iff_ne.2 h, ofText, ofText]
    split <;> split <;> first | rfl | exact beq_eq_false_iff_ne.2 h

/-- Whether an atom counts as true: all but nothing, false, zero and what is empty. -/
def truthy : Atom → Bool
  | null => false
  | bool b => b
  | num x => !x.isZero
  | str s => s != ""
  | broken _ => true
  | bytes bs => !bs.isEmpty
  | date _ | moment _ => true

end Atom

namespace Value

/-- Whether a value counts as true: lists, sets and records do unless they are empty. -/
def truthy : Value → Bool
  | atom a => a.truthy
  | list items => !items.isEmpty
  | pair .. => true
  | set members => !members.isEmpty
  | record entries => !entries.isEmpty

/-- Whether a value is a truth value. -/
def isBool : Value → Bool
  | bool _ => true
  | _ => false

/-- The number that a value is, truth values excluded. -/
def number? : Value → Option Number
  | num x => some x
  | _ => none

/-- The items of a list or the two parts of a pair. -/
def items? : Value → Option (List Value)
  | list items => some items
  | pair v w => some [v, w]
  | _ => none

end Value

/-! ### Records -/

namespace Record

variable {α : Type}

/-- The value under a key. -/
def get? (entries : List (Atom × α)) (key : Atom) : Option α :=
  (entries.find? (·.1.equals key)).map (·.2)

/-- Sets the value under a key. A key that is there keeps its place and its own form. -/
def insert : List (Atom × α) → Atom → α → List (Atom × α)
  | [], key, value => [(key, value)]
  | (k, v) :: rest, key, value =>
    if k.equals key then (k, value) :: rest else (k, v) :: insert rest key value

/-- The record of a list of entries, in which a later entry replaces the value of an earlier one. -/
def ofEntries (entries : List (Atom × α)) : List (Atom × α) :=
  entries.foldl (fun record (k, v) => insert record k v) []

end Record

end NodeFlow
