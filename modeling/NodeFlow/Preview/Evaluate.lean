import NodeFlow.Graph.Loops
import NodeFlow.Graph.Order
import NodeFlow.Graph.Roots
import NodeFlow.Preview.Compute

/-!
# Evaluating a graph

All nodes are evaluated, sources before consumers. A root that a loop governs gets what the loop
would leave in it: variables are not kept, so every pass of a loop sees the same inputs and the
first pass decides.
-/

namespace NodeFlow.Preview

/-! ### Loops -/

/-- The value of a computation, nothing if a cycle was noticed. -/
def orNothing (x : Computation Value) : StateM Memo Value := do
  return match ← x.run with
    | .ok value => value
    | .error _ => .null

/-- What an edge brings, nothing if there is none or no value at its source. -/
def safely (s : Setting) (e : Option Edge) : StateM Memo Value := orNothing (brought (compute s) e)

/-- The number of passes that a value allows: none if it is not a finite number. -/
def passCap (v : Value) : Except EvalFault Int :=
  let x := v.asNumber
  match x.finite? with
  | none => .error .tooLarge
  | some finite => .ok (if finite then x.truncate?.getD 0 else 0)

/-- The number of passes that a loop may make: what its maximum allows, the default if nothing is
wired to it. -/
def allowedPasses (s : Setting) (loop : String) (defaultCap : Int) :
    ExceptT EvalFault (StateM Memo) Int :=
  match s.graph.inputEdge? loop (some "max") with
  | none => return defaultCap
  | some e => do ExceptT.mk (pure (passCap (← safely s (some e))))

/-- What a loop leaves in a root that it governs. The root keeps its value if the condition holds,
at least one pass is allowed, and no signal stops the first pass. -/
def loopOutcome (s : Setting) (loop root : String) (defaultCap : Int) :
    ExceptT EvalFault (StateM Memo) Value := do
  let input (handle : String) := s.graph.inputEdge? loop (some handle)
  let condition ← safely s (input "cond")
  let cap ← allowedPasses s loop defaultCap
  if !condition.truthy || cap < 1 then return .null
  if (← safely s (input "cont")).truthy then return .null
  if (← safely s (input "brk")).truthy then return .null
  orNothing (compute s root)

/-! ### All nodes -/

/-- The memo and the nodes without a value after one more node was evaluated. -/
def settleNode (g : Graph) (record : Value) (known : Memo × List String) (id : String) :
    Memo × List String :=
  match (compute ⟨g, record, known.2⟩ id).run known.1 with
  | (.ok _, memo) => (memo, known.2)
  | (.error _, memo) => (memo, known.2 ++ [id])

/-- The memo and the nodes without a value after all nodes were evaluated in order. -/
def settle (g : Graph) (record : Value) : Memo × List String :=
  (g.order g.ids).foldl (settleNode g record) ([], [])

/-- The values of roots that loops govern. -/
def governedValues (s : Setting) (defaultCap : Int) (governed : List Graph.Governed) :
    List Root → ExceptT EvalFault (StateM Memo) (List (String × Value))
  | [] => return []
  | root :: rest =>
    match governed.lookup root.node with
    | none => governedValues s defaultCap governed rest
    | some loop => do
      let value ← loopOutcome s loop root.node defaultCap
      return (root.node, value) :: (← governedValues s defaultCap governed rest)

/-- The values of all nodes, in the order of their names. There are none when the number of passes
of a loop is too large to be compared. -/
def evaluate (g : Graph) (record : Value) (defaultCap : Int) :
    Except EvalFault (List (String × Value)) := do
  let (memo, failed) := settle g record
  let outcome := governedValues ⟨g, record, failed⟩ defaultCap g.governed g.roots
  let governed ← (outcome.run memo).1
  return g.distinctIds.map fun id =>
    (id, ((governed.lookup id).orElse fun _ => memo.lookup id).getD .null)

end NodeFlow.Preview
