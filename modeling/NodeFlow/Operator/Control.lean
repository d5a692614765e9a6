import NodeFlow.Operator.Basic

/-!
# Operators of control

Choice, the loop, and the signals that a loop listens to. A loop governs the nodes that its one
output is wired to. It has no value of its own to pass on; that output only marks the nodes.
-/

namespace NodeFlow.Operator

/-- The name of the loop operator. -/
def loopId : String := "while_loop"

/-- The output by which a loop governs nodes. -/
def scopeHandle : String := "body"

/-- One of two values, by the truth of a third. -/
def choice : Operator where
  id := "if"
  label := "If"
  help := "If Cond then Then else Else."
  inputs := [⟨"cond", .boolean, some "Cond"⟩, ⟨"t", .any, some "Then"⟩, ⟨"f", .any, some "Else"⟩]
  output := ⟨"out", .any, none⟩
  eval := fun args => .ok (if (args "cond").truthy then args "t" else args "f")
  template := .expression ["(", .hole "t", " if ", .hole "cond", " else ", .hole "f", ")"]

/-- The loop. -/
def loop : Operator where
  id := loopId
  label := "While"
  help := "Repeat the nodes wired to Body while Condition holds, at most Max iterations."
  inputs := [⟨"cond", .boolean, some "Condition"⟩, ⟨"max", .number, some "Max iters"⟩,
    ⟨"cont", .boolean, some "Continue"⟩, ⟨"brk", .boolean, some "Break"⟩]
  output := ⟨scopeHandle, .boolean, some "Body"⟩
  eval := fun _ => .ok (.bool true)
  template := .byHandle [(scopeHandle, "True")]

/-- A signal for a loop, sent when its input counts as true. -/
def signal (id label help : String) : Operator where
  id := id
  label := label
  help := help
  inputs := [⟨"when", .boolean, some "When"⟩]
  output := ⟨"out", .boolean, none⟩
  eval := fun args => .ok (.bool (args "when").truthy)
  template := .expression ["(bool(", .hole "when", "))"]

/-- The signal to leave a loop. -/
def breakSignal : Operator := signal "break_signal" "Break" "Break signal for a While node."

/-- The signal to go on with a loop's next pass. -/
def continueSignal : Operator :=
  signal "continue_signal" "Continue" "Continue signal for a While node."

end NodeFlow.Operator
