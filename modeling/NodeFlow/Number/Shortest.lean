import NodeFlow.Number.Binary

/-!
# Shortest decimals

The decimal with the fewest digits that reads back to a given double, and of those the nearest one.
The reals that round to a double form an interval whose ends belong to it when the mantissa is even.
For each number of digits the two decimals around the double are tested against that interval in
exact arithmetic; the first number of digits with a hit wins.
-/

namespace NodeFlow.Shortest

open Binary

/-- A decimal `digits · 10 ^ exponent`. -/
structure Decimal where
  digits : Nat
  exponent : Int
deriving DecidableEq, Repr

/-- The reals that round to a double, in units of `unit.1 / unit.2`: the double itself, and the
distance to either end. -/
structure Interval where
  low : Nat
  middle : Nat
  high : Nat
  closed : Bool
  unit : Nat × Nat
deriving DecidableEq, Repr

/-- The interval of `mantissa · 2 ^ exponent`, in quarters of its last place. Below a power of two
the neighbours lie twice as close. -/
def interval (mantissa : Nat) (exponent : Int) : Interval where
  low := 4 * mantissa - if mantissa = hiddenBit ∧ leastExponent < exponent then 1 else 2
  middle := 4 * mantissa
  high := 4 * mantissa + 2
  closed := mantissa % 2 == 0
  unit := (power 2 (exponent - 2), power 2 (2 - exponent))

/-- Whether the fraction `num / den` rounds to the double of the interval. -/
def Interval.holds (i : Interval) (num den : Nat) : Bool :=
  let below := i.low * i.unit.1 * den
  let at_ := num * i.unit.2
  let above := i.high * i.unit.1 * den
  if i.closed then below ≤ at_ && at_ ≤ above else below < at_ && at_ < above

/-- The exponent `p` with `10 ^ p ≤ num / den < 10 ^ (p + 1)`, from its binary magnitude. -/
def decimalMagnitude (num den : Nat) : Int :=
  let guess := (magnitude num den * 30103).fdiv 100000
  let atLeast (p : Int) : Bool := den * power 10 p ≤ num * power 10 (-p)
  if atLeast (guess + 1) then guess + 1
  else if atLeast guess then guess
  else guess - 1

/-- The nearest decimal of the interval on the grid of multiples of `10 ^ exponent`, if the grid has
one there: of the double's two neighbours on the grid the nearer, and of two as near the even. -/
def Interval.onGrid? (i : Interval) (exponent : Int) : Option Nat :=
  let num := i.middle * i.unit.1 * power 10 (-exponent)
  let den := i.unit.2 * power 10 exponent
  let lower := num / den
  let rest := 2 * (num % den)
  let holds (c : Nat) : Bool := i.holds (c * power 10 exponent) (power 10 (-exponent))
  let nearer := if rest < den || (rest == den && lower % 2 == 0) then lower else lower + 1
  let other := if nearer = lower then lower + 1 else lower
  if holds nearer then some nearer
  else if holds other then some other
  else none

/-- The first grid with a hit, from `fuel` grids of which the coarsest has the given exponent. -/
def Interval.search (i : Interval) : Nat → Int → Decimal
  | 0, exponent => ⟨0, exponent⟩
  | fuel + 1, exponent =>
    match i.onGrid? exponent with
    | some digits => ⟨digits, exponent⟩
    | none => i.search fuel (exponent - 1)

/-- Seventeen digits always suffice, so the search over eighteen grids ends with a hit. -/
def Interval.shortest (i : Interval) : Decimal :=
  i.search 18 (decimalMagnitude (i.middle * i.unit.1) i.unit.2)

/-- The digits of a decimal without trailing zeros, and the power of ten of the first one. -/
def Decimal.normal (d : Decimal) : List Char × Int :=
  let digits := Nat.toDigits 10 d.digits
  let leading := d.exponent + digits.length - 1
  ((digits.reverse.dropWhile (· == '0')).reverse, leading)

end NodeFlow.Shortest
