/-!
# Cutting and thinning lists

Three operations on lists of anything: the slice between two bounds in steps, the chunks of a size,
and the first of each class of like items.
-/

namespace NodeFlow.Sequence

variable {α : Type}

/-! ### Slices -/

/-- A bound of a slice of a list of a given length. A negative bound counts from the end; one beyond
an end is moved to it, where a backward slice may stop before the first item. -/
def clamp (length : Nat) (backward : Bool) (bound : Int) : Int :=
  let place := if bound < 0 then bound + length else bound
  if backward then max (-1) (min place (length - 1)) else max 0 (min place length)

/-- The number of steps from one place to before another. -/
def stepCount (start stop step : Int) : Nat :=
  if 0 < step then ((stop - start + step - 1).fdiv step).toNat
  else ((start - stop - step - 1).fdiv (-step)).toNat

/-- The items of a list from a start to before a stop, in steps that may go backward but are not
zero. A missing bound is the end of the list on its side. -/
def slice (start stop : Option Int) (step : Int) (xs : List α) : List α :=
  let backward := step < 0
  let length := xs.length
  let first := (start.map (clamp length backward)).getD (if backward then length - 1 else 0)
  let last := (stop.map (clamp length backward)).getD (if backward then -1 else length)
  let items := xs.toArray
  (List.range (stepCount first last step)).filterMap fun (k : Nat) =>
    items[(first + k * step).toNat]?

/-! ### Chunks -/

/-- The list in chunks of one more than the given number of items, the last of which may be
shorter. -/
def chunks (more : Nat) : List α → List (List α)
  | [] => []
  | x :: xs => (x :: xs.take more) :: chunks more (xs.drop more)
termination_by xs => xs.length
decreasing_by simp only [List.length_drop, List.length_cons]; omega

/-! ### First occurrences -/

/-- The items that are like none of the given ones nor of those kept before them. -/
def distinctFrom (like : α → α → Bool) (kept : List α) : List α → List α
  | [] => kept.reverse
  | x :: xs =>
    if kept.any (like x) then distinctFrom like kept xs else distinctFrom like (x :: kept) xs

/-- The items that are like none of those kept before them. -/
def distinct (like : α → α → Bool) (xs : List α) : List α := distinctFrom like [] xs

end NodeFlow.Sequence
