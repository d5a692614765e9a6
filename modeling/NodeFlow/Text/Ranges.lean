/-!
# Sets of characters given by ranges

A property of characters is kept as a list of inclusive ranges of code points, in increasing order.
-/

namespace NodeFlow

/-- Inclusive ranges of code points. -/
abbrev CharRanges := List (Nat × Nat)

/-- Whether a character lies in one of the ranges. -/
def CharRanges.has (ranges : CharRanges) (c : Char) : Bool :=
  ranges.any fun (first, last) => first ≤ c.toNat && c.toNat ≤ last

end NodeFlow
