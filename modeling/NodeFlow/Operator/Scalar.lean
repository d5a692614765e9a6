import NodeFlow.Operator.Basic
import NodeFlow.Value.Text

/-!
# Operators on single values

Arithmetic, text, comparison, and logic. Arguments are counted as numbers or truth values where the
operation asks for these, so that most of the operators have a value for all arguments.
-/

namespace NodeFlow.Operator

/-- An operator with the inputs `a` and `b` that is written between them in code. -/
def binary (id label : String) (dtype out : Dtype) (eval : Value → Value → Except EvalFault Value)
    (symbol help : String) : Operator where
  id := id
  label := label
  help := help
  inputs := [⟨"a", dtype, some "A"⟩, ⟨"b", dtype, some "B"⟩]
  output := ⟨"out", out, none⟩
  eval := fun args => eval (args "a") (args "b")
  template := .expression ["(", .hole "a", " " ++ symbol ++ " ", .hole "b", ")"]

/-! ### Arithmetic -/

/-- An arithmetic operation on what two values count as. -/
def arithmetic (f : Number → Number → Option Number) (a b : Value) : Except EvalFault Value :=
  (Number.orTooLarge (f a.asNumber b.asNumber)).map .num

/-- The quotient, nothing when the divisor counts as zero. -/
def quotient (a b : Value) : Except EvalFault Value :=
  if b.asNumber.isZero then .ok .null else arithmetic Number.div? a b

/-- The sum of two values. -/
def add : Operator :=
  binary "add" "Add" .number .number (arithmetic Number.add?) "+" "Add A + B (numbers)."

/-- The difference of two values. -/
def subtract : Operator :=
  binary "subtract" "Subtract" .number .number (arithmetic Number.sub?) "-" "Subtract A - B."

/-- The product of two values. -/
def multiply : Operator :=
  binary "multiply" "Multiply" .number .number (arithmetic Number.mul?) "*" "Multiply A x B."

/-- The quotient of two values. -/
def divide : Operator :=
  binary "divide" "Divide" .number .number quotient "/"
    "Divide A / B. Preview returns None when B is 0; generated code does not guard."

/-! ### Text -/

/-- The text that a value contributes to a longer one: none for nothing. -/
def joinedText (v : Value) : Except EvalFault String :=
  if v == .null then .ok ""
  else if v.isWritable then .ok v.text
  else .error .tooManyDigits

/-- Two values as one text. -/
def concat : Operator where
  id := "concat"
  label := "Concat"
  help := "Concatenate strings A and B."
  inputs := [⟨"a", .string, some "A"⟩, ⟨"b", .string, some "B"⟩]
  output := ⟨"out", .string, none⟩
  eval := fun args => do
    let a ← joinedText (args "a")
    let b ← joinedText (args "b")
    return .atom (.ofText (a ++ b))
  template := .expression ["(str(", .hole "a", ") + str(", .hole "b", "))"]

/-! ### Comparison -/

/-- A comparison of what two values count as. -/
def comparison (f : Number → Number → Bool) (a b : Value) : Except EvalFault Value :=
  .ok (.bool (f a.asNumber b.asNumber))

/-- Strict equality. -/
def equality : Operator :=
  binary "eq" "Equals" .any .boolean (fun a b => .ok (.bool (a.strictEquals b))) "=="
    "True if A equals B (strict equality)."

/-- The opposite of strict equality. -/
def inequality : Operator :=
  binary "ne" "Not equal" .any .boolean (fun a b => .ok (.bool (!a.strictEquals b))) "!="
    "True if A differs from B."

/-- Whether the first number is above the second. -/
def above : Operator :=
  binary "gt" ">" .number .boolean (comparison fun x y => y.below x) ">" "True if A > B."

/-- Whether the first number is below the second. -/
def below : Operator :=
  binary "lt" "<" .number .boolean (comparison Number.below) "<" "True if A < B."

/-- Whether the first number is the second or above it. -/
def atLeast : Operator :=
  binary "gte" ">=" .number .boolean (comparison fun x y => y.atMost x) ">=" "True if A >= B."

/-- Whether the first number is the second or below it. -/
def atMost : Operator :=
  binary "lte" "<=" .number .boolean (comparison Number.atMost) "<=" "True if A <= B."

/-! ### Logic -/

/-- A connective of what two values count as. -/
def connective (f : Bool → Bool → Bool) (a b : Value) : Except EvalFault Value :=
  .ok (.bool (f a.truthy b.truthy))

/-- Conjunction. -/
def conjunction : Operator :=
  binary "and" "AND" .boolean .boolean (connective (· && ·)) "and" "Logical AND of A and B."

/-- Disjunction. -/
def disjunction : Operator :=
  binary "or" "OR" .boolean .boolean (connective (· || ·)) "or" "Logical OR of A and B."

/-- Negation. -/
def negation : Operator where
  id := "not"
  label := "NOT"
  help := "Logical NOT of A."
  inputs := [⟨"a", .boolean, some "A"⟩]
  output := ⟨"out", .boolean, none⟩
  eval := fun args => .ok (.bool (!(args "a").truthy))
  template := .expression ["(not ", .hole "a", ")"]

/-- Exclusive disjunction. -/
def exclusiveOr : Operator where
  id := "xor"
  label := "XOR"
  help := "Exclusive OR: true if A and B differ."
  inputs := [⟨"a", .boolean, some "A"⟩, ⟨"b", .boolean, some "B"⟩]
  output := ⟨"out", .boolean, none⟩
  eval := fun args => connective (· != ·) (args "a") (args "b")
  template := .expression ["(bool(", .hole "a", ") ^ bool(", .hole "b", "))"]

/-- The first value unless it is nothing, and then the second. -/
def coalesce : Operator where
  id := "coalesce"
  label := "Coalesce"
  help := "Return A unless it is None, otherwise B."
  inputs := [⟨"a", .any, some "A"⟩, ⟨"b", .any, some "B"⟩]
  output := ⟨"out", .any, none⟩
  eval := fun args => .ok (if args "a" == .null then args "b" else args "a")
  template := .expression
    ["(", .hole "a", " if ", .hole "a", " is not None else ", .hole "b", ")"]

end NodeFlow.Operator
