import NodeFlow.Number.Power

/-!
# Binary floating-point numbers as exact fractions

A finite double is `± m · 2 ^ q` for naturals `m` and an integer `q`. `Binary.form` reads that
shape off the bits, and `Binary.nearest?` goes the other way: it is the double nearest to a
fraction, ties to the even mantissa, or nothing when the fraction lies beyond the largest double.
Reading decimals, dividing integers and turning an integer into a double are all this one rounding.
-/

namespace NodeFlow.Binary

/-- What a double is: no number, an infinity, or `± mantissa · 2 ^ exponent`. -/
inductive Form where
  | nan
  | infinite (negative : Bool)
  | finite (negative : Bool) (mantissa : Nat) (exponent : Int)
deriving DecidableEq, Repr

/-- The exponent of the smallest positive double, `2 ^ -1074`. -/
def leastExponent : Int := -1074

/-- The leading bit of a mantissa, which is not stored: `2 ^ 52`. -/
def hiddenBit : Nat := 0x10000000000000

/-- The shape of a double, read off its bits: sign, eleven bits of exponent, 52 of fraction. -/
def form (x : Float) : Form :=
  let bits := x.toBits.toNat
  let negative := bits / 0x8000000000000000 == 1
  let exponent : Nat := bits / hiddenBit % 0x800
  let fraction : Nat := bits % hiddenBit
  if exponent = 2047 then
    if fraction = 0 then .infinite negative else .nan
  else if exponent = 0 then .finite negative fraction leastExponent
  else .finite negative (fraction + hiddenBit) (leastExponent + exponent - 1)

/-- The quotient `num / den` rounded to the nearest natural, a half to the even neighbour. -/
def roundHalfEven (num den : Nat) : Nat :=
  let quotient := num / den
  let twice := 2 * (num % den)
  if twice < den then quotient
  else if den < twice then quotient + 1
  else quotient + quotient % 2

/-- `n · 2 ^ k` when `k` is positive, and `n` otherwise: one side of a scaled fraction. -/
def scaleUp (n : Nat) (k : Int) : Nat := n * power 2 k

/-- The exponent `e` with `2 ^ e ≤ num / den < 2 ^ (e + 1)`, for positive `num` and `den`. -/
def magnitude (num den : Nat) : Int :=
  let guess : Int := (num.log2 : Int) - den.log2
  if scaleUp num (-guess) < scaleUp den guess then guess - 1 else guess

/-- The double with the given sign, mantissa below or at `2 ^ 53` and exponent, or nothing when it
is too large. A mantissa of `2 ^ 53` carries into the exponent by plain addition. -/
def assemble? (negative : Bool) (mantissa : Nat) (exponent : Int) : Option Float :=
  let bits := (exponent - leastExponent).toNat * hiddenBit + mantissa
  if 2047 * hiddenBit ≤ bits then none
  else some (Float.ofBits (UInt64.ofNat (bits + if negative then 0x8000000000000000 else 0)))

/-- The double nearest to `± num / den`, ties to the even mantissa; `none` when the fraction rounds
beyond the largest double. -/
def nearest? (negative : Bool) (num den : Nat) : Option Float :=
  if num = 0 then assemble? negative 0 leastExponent
  else
    let exponent := max (magnitude num den - 52) leastExponent
    assemble? negative (roundHalfEven (scaleUp num (-exponent)) (scaleUp den exponent)) exponent

/-- The double nearest to an integer, when the integer is not too large. -/
def ofInt? (n : Int) : Option Float := nearest? (n < 0) n.natAbs 1

/-- The value that is no number. -/
def nan : Float := Float.ofBits 0x7FF8000000000000

/-- Positive or negative infinity. -/
def infinity (negative : Bool) : Float :=
  Float.ofBits (if negative then 0xFFF0000000000000 else 0x7FF0000000000000)

/-- The double nearest to `± digits · 10 ^ exponent`. Exponents far outside the range of doubles are
settled without computing the power. -/
def ofDecimal (negative : Bool) (digits : Nat) (exponent : Int) : Float :=
  let zero := Float.ofBits (if negative then 0x8000000000000000 else 0)
  if digits = 0 then zero
  else if 400 < exponent then infinity negative
  else if exponent + digits.log2 < -400 then zero
  else
    (nearest? negative (digits * power 10 exponent) (power 10 (-exponent))).getD
      (infinity negative)

/-- The integer part of a finite double, toward zero; `none` for the others. -/
def truncate? (x : Float) : Option Int :=
  match form x with
  | .finite negative mantissa exponent =>
    let size := scaleUp mantissa exponent / power 2 (-exponent)
    some (if negative then -size else size)
  | _ => none

/-- The largest integer not above a finite double; `none` for the others. -/
def floor? (x : Float) : Option Int :=
  match form x with
  | .finite negative mantissa exponent =>
    let num : Int := scaleUp mantissa exponent
    some ((if negative then -num else num).fdiv (power 2 (-exponent)))
  | _ => none

/-- How an integer compares with a double, exactly; `none` when the double is no number. -/
def compareInt (n : Int) (x : Float) : Option Ordering :=
  match form x with
  | .nan => none
  | .infinite negative => some (if negative then .gt else .lt)
  | .finite negative mantissa exponent =>
    let num : Int := scaleUp mantissa exponent
    some (compare (n * power 2 (-exponent)) (if negative then -num else num))

end NodeFlow.Binary
