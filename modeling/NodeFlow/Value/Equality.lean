import NodeFlow.Value.Basic

/-!
# Equality of values

Two notions. Values are equal when they have the same parts, numbers and truth values being compared
by what they count as. They are strictly equal when they are equal and of one kind, where all
numbers are of one kind and truth values are not numbers.
-/

namespace NodeFlow

/-- The kinds of values. -/
inductive Kind where
  | nothing
  | truth
  | bytes
  | date
  | moment
  | record
  | double
  | integer
  | list
  | set
  | text
  | pair
deriving DecidableEq, Repr

/-- The name of a kind. Values of several kinds are put in order by these. -/
def Kind.name : Kind → String
  | nothing => "NoneType"
  | truth => "bool"
  | bytes => "bytes"
  | date => "date"
  | moment => "datetime"
  | record => "dict"
  | double => "float"
  | integer => "int"
  | list => "list"
  | set => "set"
  | text => "str"
  | pair => "tuple"

namespace Value

/-- The kind of a value. -/
def kind : Value → Kind
  | null => .nothing
  | bool _ => .truth
  | int _ => .integer
  | float _ => .double
  | str _ | atom (.broken _) => .text
  | atom (.bytes _) => .bytes
  | atom (.date _) => .date
  | atom (.moment _) => .moment
  | list _ => .list
  | pair .. => .pair
  | set _ => .set
  | record _ => .record

/-- Whether every atom of one list equals an atom of another. -/
def subset (xs ys : List Atom) : Bool := xs.all fun a => ys.any a.equals

mutual

/-- Whether two values are equal part by part. The order of a set's members and of a record's
entries does not count. No number differs from itself here wherever it stands. In a running program
a double is an object: inside of a list, a pair or a record one that is no number is taken for equal
to itself, though not to another one. Values do not tell objects apart. -/
def equals : Value → Value → Bool
  | atom a, atom b => a.equals b
  | list xs, list ys => equalItems xs ys
  | pair v v', pair w w' => v.equals w && v'.equals w'
  | set xs, set ys => xs.length == ys.length && subset xs ys
  | record xs, record ys => xs.length == ys.length && equalEntries xs ys
  | _, _ => false

/-- Whether two lists are equal position by position. -/
def equalItems : List Value → List Value → Bool
  | [], [] => true
  | v :: xs, w :: ys => v.equals w && equalItems xs ys
  | _, _ => false

/-- Whether each entry has an equal value under its key in another record. -/
def equalEntries : List (Atom × Value) → List (Atom × Value) → Bool
  | [], _ => true
  | (k, v) :: rest, ys =>
    (match Record.get? ys k with
      | some w => v.equals w
      | none => false) && equalEntries rest ys

end

/-- Whether two values are equal and of one kind, all numbers being of one kind. -/
def strictEquals : Value → Value → Bool
  | num x, num y => x.equals y
  | v, w => v.kind == w.kind && v.equals w

end Value

end NodeFlow
