import NodeFlow.Number.Binary

/-!
# Numbers

A number is an exact integer or a double. Integers stay exact among themselves; where one meets a
double it is rounded to one, which fails for an integer beyond the largest double. Comparison is
exact throughout, so it never fails.
-/

namespace NodeFlow

/-- An exact integer or a double. -/
inductive Number where
  | int (n : Int)
  | float (x : Float)
deriving DecidableEq

namespace Number

/-- The number as a double; `none` for an integer beyond the largest double. -/
def toFloat? : Number → Option Float
  | int n => Binary.ofInt? n
  | float x => some x

/-- An operation that is exact on integers and rounded on doubles. -/
def combine? (exact : Int → Int → Int) (rounded : Float → Float → Float) :
    Number → Number → Option Number
  | int m, int n => some (int (exact m n))
  | x, y => do return float (rounded (← x.toFloat?) (← y.toFloat?))

/-- The sum; `none` when an integer too large for a double meets a double. -/
def add? : Number → Number → Option Number := combine? (· + ·) (· + ·)

/-- The difference, under the same proviso as the sum. -/
def sub? : Number → Number → Option Number := combine? (· - ·) (· - ·)

/-- The product, under the same proviso as the sum. -/
def mul? : Number → Number → Option Number := combine? (· * ·) (· * ·)

/-- The quotient by a number other than zero, always a double. Of two integers it is the double
nearest to the exact quotient. -/
def div? : Number → Number → Option Number
  | int m, int n =>
    (Binary.nearest? ((m < 0) != (n < 0)) m.natAbs n.natAbs).map float
  | x, y => do return float ((← x.toFloat?) / (← y.toFloat?))

/-- How two doubles compare; `none` when one of them is no number. -/
def compareFloat (x y : Float) : Option Ordering :=
  if x < y then some .lt else if y < x then some .gt else if x == y then some .eq else none

/-- How two numbers compare by value; `none` when one of them is no number. -/
def compare? : Number → Number → Option Ordering
  | int m, int n => some (compare m n)
  | int m, float y => Binary.compareInt m y
  | float x, int n => (Binary.compareInt n x).map Ordering.swap
  | float x, float y => compareFloat x y

/-- Whether two numbers have the same value. -/
def equals (x y : Number) : Bool := x.compare? y == some .eq

/-- Whether one number is below another. -/
def below (x y : Number) : Bool := x.compare? y == some .lt

/-- Whether one number is below another or has its value. -/
def atMost (x y : Number) : Bool := x.below y || x.equals y

/-- Whether a number is zero. -/
def isZero (x : Number) : Bool := x.equals (int 0)

/-- Whether a number is finite, asked of its double; `none` for an integer beyond the largest. -/
def finite? (x : Number) : Option Bool := x.toFloat?.map Float.isFinite

/-- The integer part of a finite number, toward zero. -/
def truncate? : Number → Option Int
  | int n => some n
  | float x => Binary.truncate? x

/-- The largest integer not above a finite number. -/
def floor? : Number → Option Int
  | int n => some n
  | float x => Binary.floor? x

/-- The number that is no number. -/
def nan : Number := float Binary.nan

/-- The sum of a list, from the integer zero and from the left. -/
def sum? (xs : List Number) : Option Number := xs.foldlM add? (int 0)

/-- The product of a list, from the integer one and from the left. -/
def product? (xs : List Number) : Option Number := xs.foldlM mul? (int 1)

/-- The first of the numbers that none before or after replaces: a later number replaces an earlier
one only if it is better. -/
def best? (better : Number → Number → Bool) : List Number → Option Number
  | [] => none
  | x :: xs => some (xs.foldl (fun champion y => if better y champion then y else champion) x)

end Number

end NodeFlow
