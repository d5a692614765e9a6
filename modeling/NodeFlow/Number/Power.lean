/-!
# Powers with integer exponents

The scale of a fraction `n · b ^ k` is kept on one of its two sides: a power with a negative
exponent is one where the other side has the power with the opposite exponent.
-/

namespace NodeFlow

/-- The power of a base with an exponent, one when the exponent is negative. -/
def power (base : Nat) (exponent : Int) : Nat := Nat.pow base exponent.toNat

end NodeFlow
