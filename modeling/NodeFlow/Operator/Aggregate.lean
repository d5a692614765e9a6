import NodeFlow.Operator.Basic

/-!
# Operators that make and sum up lists of numbers

What is no list counts as an empty one, and each item counts as a number.
-/

namespace NodeFlow.Operator

/-- The port for a list. -/
def listPort : Port := ⟨"list", .list, some "List"⟩

/-- The most items that a list made by direct evaluation may have. -/
def itemLimit : Nat := 10000

/-- An operator on one list. -/
def onList (id label : String) (out : Dtype) (eval : Value → Except EvalFault Value)
    (pieces : List Piece) (help : String) : Operator where
  id := id
  label := label
  help := help
  inputs := [listPort]
  output := ⟨"out", out, none⟩
  eval := fun args => eval (args "list")
  template := .expression pieces

/-- An operator on one list and one more argument. -/
def onListWith (id label : String) (port : Port) (eval : Value → Value → Except EvalFault Value)
    (pieces : List Piece) (help : String) : Operator where
  id := id
  label := label
  help := help
  inputs := [listPort, port]
  output := ⟨"out", .list, none⟩
  eval := fun args => eval (args "list") (args port.id)
  template := .expression pieces

/-- What the items of a list count as. -/
def numbers (list : Value) : List Number := list.items.map Value.asNumber

/-! ### Progressions -/

/-- Whether a number lies before a stop in the direction of a step. -/
def isBefore (stop step x : Number) : Bool :=
  if (Number.int 0).below step then x.below stop else stop.below x

/-- The numbers from a start to before a stop in steps, at most so many. -/
def progression (stop step : Number) : Nat → Number → Except EvalFault (List Value)
  | 0, _ => .ok []
  | limit + 1, x =>
    if isBefore stop step x then do
      let next ← Number.orTooLarge (x.add? step)
      return .num x :: (← progression stop step limit next)
    else .ok []

/-- Whether all numbers are finite, asked from the left up to the first that is not. -/
def allFinite : List Number → Except EvalFault Bool
  | [] => .ok true
  | x :: rest =>
    match x.finite? with
    | none => .error .tooLarge
    | some false => .ok false
    | some true => allFinite rest

/-- The numbers from `start` to before `stop` in steps: none for a step of zero or a bound that is
not finite, and never more than the limit. -/
def rangeValue (args : Args) : Except EvalFault Value := do
  let start := (args "start").asNumber
  let stop := (args "stop").asNumber
  let step := (args "step").numberOr 1
  if !(← allFinite [start, stop, step]) || step.isZero then return .list []
  return .list (← progression stop step itemLimit start)

/-- A list of numbers in steps. -/
def range : Operator where
  id := "range"
  label := "Range"
  help := "List of numbers from Start to Stop (exclusive) stepping by Step."
  inputs := [⟨"start", .number, some "Start"⟩, ⟨"stop", .number, some "Stop"⟩,
    ⟨"step", .number, some "Step"⟩]
  output := ⟨"out", .list, none⟩
  eval := rangeValue
  template := .expression
    ["list(range(", .hole "start", ", ", .hole "stop", ", ", .hole "step", "))"]

/-! ### One number from many -/

/-- The sum of the items. -/
def sum : Operator :=
  onList "sum_list" "Sum" .number
    (fun list => (Number.orTooLarge (Number.sum? (numbers list))).map .num)
    ["sum(", .hole "list", ")"] "Sum of all numbers in List."

/-- The product of the items, nothing counting as one. -/
def product : Operator :=
  onList "product_list" "Product" .number
    (fun list =>
      (Number.orTooLarge (Number.product? (list.items.map (Value.numberOr 1)))).map .num)
    ["math.prod(", .hole "list", ")"] "Multiply all numbers together."

/-- The average of numbers, zero when there are none. -/
def averageOf (xs : List Number) : Except EvalFault Number :=
  if xs.isEmpty then .ok (.int 0)
  else do
    let total ← Number.orTooLarge (Number.sum? xs)
    Number.orTooLarge (total.div? (.int xs.length))

/-- The average of the items. -/
def average : Operator :=
  onList "average_list" "Average" .number (fun list => (averageOf (numbers list)).map .num)
    ["((sum(", .hole "list", ")/len(", .hole "list", ")) if len(", .hole "list", ") else 0)"]
    "Average of numbers (0 if empty)."

/-- The number that beats the others, nothing when there are none. -/
def extremum (better : Number → Number → Bool) (list : Value) : Except EvalFault Value :=
  .ok (((Number.best? better (numbers list)).map .num).getD .null)

/-- The least item. -/
def minimum : Operator :=
  onList "min_list" "Min" .number (extremum Number.below) ["min(", .hole "list", ")"]
    "Minimum value."

/-- The greatest item. -/
def maximum : Operator :=
  onList "max_list" "Max" .number (extremum fun x y => y.below x) ["max(", .hole "list", ")"]
    "Maximum value."

/-- The number of items. -/
def length : Operator :=
  onList "length" "Length" .number (fun list => .ok (.int list.items.length))
    ["len(", .hole "list", ")"] "Number of elements in List."

/-! ### Item by item -/

/-- An operation with a constant on each item of a list. -/
def onEach (f : Number → Number → Option Number) (constant : Number) (list : Value) :
    Except EvalFault Value :=
  (list.items.mapM fun x => (Number.orTooLarge (f x.asNumber constant)).map .num).map .list

/-- A constant added to each item. -/
def addToEach : Operator :=
  onListWith "map_add" "Map +" ⟨"add", .number, some "+"⟩
    (fun list constant => onEach Number.add? constant.asNumber list)
    ["[ (x + ", .hole "add", ") for x in ", .hole "list", " ]"]
    "Add constant (+) to each element of List."

/-- Each item times a constant. -/
def multiplyEach : Operator :=
  onListWith "map_mul" "Map x" ⟨"mul", .number, some "x"⟩
    (fun list constant => onEach Number.mul? (constant.numberOr 1) list)
    ["[ (x * ", .hole "mul", ") for x in ", .hole "list", " ]"]
    "Multiply each element of List by x."

end NodeFlow.Operator
