import NodeFlow.Graph.Loops
import NodeFlow.Graph.Order
import NodeFlow.Text.Fallback
import NodeFlow.Value.Text

/-!
# The plan of a graph

A listing of the nodes, sources before consumers, each with what it does, the loop that governs it,
and the edges out of it.
-/

namespace NodeFlow

/-- What a node does, in a few words. -/
def Node.tag (n : Node) : Spelling :=
  match n.content with
  | .field path _ _ => .ok ("field " ++ path)
  | .const value _ _ => .ofText value.isWritable ("const " ++ value.display)
  | .operator op _ _ => .ok op
  | .output label _ => .ok ("output " ++ label)

namespace Graph

variable (g : Graph)

/-- The line of an edge below the node that it leaves. -/
def edgeLine (e : Edge) : String :=
  "    └─▶ " ++ e.target ++ "  (" ++ Text.orElse (e.sourceHandle.getD "") "out" ++ "->"
    ++ Text.orElse (e.targetHandle.getD "") "in" ++ ")"

/-- The lines of a node: its number, what it does and where, and the edges out of it. -/
def nodeLines (governed : List Governed) (number : Nat) (id : String) :
    Except TooManyDigits (List String) :=
  match g.node? id with
  | none => .ok []
  | some n => do
    let loop := (governed.lookup id).getD ""
    let scope := if loop.isEmpty then "" else "  in " ++ loop
    return (paddedDecimal 2 number ++ ". " ++ n.id ++ " [" ++ (← n.tag) ++ "]" ++ scope)
      :: (g.edgesFrom id).map edgeLine

/-- The lines of the plan. -/
def planLines : Except TooManyDigits (List String) := do
  let governed := g.governed
  let lines ← ((g.order g.ids).zipIdx 1).mapM fun (id, number) => g.nodeLines governed number id
  return "# ASCII Plan (topological order)" :: lines.flatten

/-- The plan. -/
def plan : Spelling := g.planLines.map ("\n".intercalate ·)

end Graph

end NodeFlow
