import NodeFlow.Number.Shortest

/-!
# Writing doubles

A double is written with the digits of `Shortest`; everything else about its text is a decision of
the format, kept in one record. The library has two formats: plain text, and the stored form of
graph files, which always shows a point before an exponent.
-/

namespace NodeFlow

/-- The decisions of a number format: which powers of ten are written positionally, whether a
fraction is shown before an exponent, and the texts of the values without digits. -/
structure NumberLayout where
  /-- The least power of ten of a leading digit written positionally. -/
  positionalFrom : Int
  /-- The least power of ten from which an exponent is written again. -/
  positionalBelow : Int
  /-- Whether a lone digit before an exponent is followed by a point and a zero. -/
  pointBeforeExponent : Bool
  nan : String
  infinity : String
deriving DecidableEq, Repr

namespace NumberLayout

/-- Plain text: positional from `0.0001` to below `10 ^ 16`, otherwise `1e+16`. -/
def plain : NumberLayout := ⟨-4, 16, false, "nan", "inf"⟩

/-- The form of graph files: as plain text, with `1.0e+16` for a lone digit. -/
def stored : NumberLayout := ⟨-4, 16, true, ".nan", ".inf"⟩

/-- An exponent with its sign and at least two digits. -/
def exponentText (exponent : Int) : String :=
  let digits := Nat.toDigits 10 exponent.natAbs
  (if exponent < 0 then "-" else "+") ++ (if digits.length < 2 then "0" else "")
    ++ String.ofList digits

/-- The text of a decimal with the given digits, the first of which stands for `10 ^ leading`. -/
def decimalText (layout : NumberLayout) (digits : List Char) (leading : Int) : String :=
  if layout.positionalFrom ≤ leading ∧ leading < layout.positionalBelow then
    if leading < 0 then
      String.ofList ('0' :: '.' :: List.replicate (-leading - 1).toNat '0' ++ digits)
    else
      let whole := leading.toNat + 1
      let ones := digits.take whole ++ List.replicate (whole - digits.length) '0'
      let fraction := digits.drop whole
      String.ofList (ones ++ '.' :: if fraction.isEmpty then ['0'] else fraction)
  else
    let mantissa := match digits with
      | [] => ['0']
      | [d] => if layout.pointBeforeExponent then [d, '.', '0'] else [d]
      | d :: rest => d :: '.' :: rest
    String.ofList mantissa ++ "e" ++ exponentText leading

/-- The text of a double. -/
def text (layout : NumberLayout) (x : Float) : String :=
  let sign (negative : Bool) := if negative then "-" else ""
  match Binary.form x with
  | .nan => layout.nan
  | .infinite negative => sign negative ++ layout.infinity
  | .finite negative mantissa exponent =>
    if mantissa = 0 then sign negative ++ "0.0"
    else
      let (digits, leading) := (Shortest.interval mantissa exponent).shortest.normal
      sign negative ++ layout.decimalText digits leading

end NumberLayout

end NodeFlow
