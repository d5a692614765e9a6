import NodeFlow.Code.Closure
import NodeFlow.Code.Render
import NodeFlow.Code.Temporary
import NodeFlow.Graph.Order

/-!
# The program of a graph

What the generated code of a graph does, before it is laid out in lines. First the temporaries of
free nodes are assigned, in the order of the nodes. Then each root gets its result: a free root
directly, a governed one from a loop of its own. Every expression is kept with the names it was
rendered over. There is no program where an expression cannot be written.
-/

namespace NodeFlow.Code

/-! ### Parts of a program -/

/-- The assignment of a node's value to its temporary. -/
structure Assignment where
  node : String
  name : String
  /-- The names that the expression may use. -/
  bound : Bound
  expression : String
deriving DecidableEq, Repr

/-- The loop that computes a governed root. -/
structure LoopBlock where
  root : Root
  loop : String
  condition : String
  cap : String
  /-- Expressions that are evaluated on each pass for what they do. -/
  passInputs : List String
  body : List Assignment
  /-- The names that what follows the body may use. -/
  bound : Bound
  continueTest : Option String
  breakTest : Option String
  result : String
deriving DecidableEq, Repr

/-- How a root gets its result. -/
inductive RootCode where
  | direct (root : Root) (expression : String)
  | looped (block : LoopBlock)
deriving DecidableEq, Repr

/-- The program of a graph. -/
structure Program where
  free : List Assignment
  results : List RootCode
deriving DecidableEq, Repr

/-! ### Building a program -/

/-- What is known while a program is built. -/
structure Progress where
  /-- Expressions written out in full. -/
  inlined : Memo
  /-- Names of temporaries. -/
  names : Names
  /-- Nodes assigned in loops, with their names. -/
  looped : Bound
deriving Inhabited

/-- A step in building a program. -/
abbrev Build (α : Type) := StateT Progress (Except TooManyDigits) α

/-- The name for a node. -/
def nameFor (g : Graph) (id : String) : Build String := do
  let (name, names) := (temporaryName g id).run (← get).names
  modify ({ · with names })
  return name

/-- The expression that an edge brings to an input, everything written out, or a default. -/
def inlineInput (g : Graph) (e : Option Edge) (default : String) : Build String := do
  match e with
  | none => return default
  | some e =>
    let (outcome, inlined) := (inline g (e.source, e.sourceHandle)).run (← get).inlined
    modify ({ · with inlined })
    outcome

/-- The assignments of nodes in a given order, and the names that are bound after them. -/
def assignAll (g : Graph) : Bound → List String → Build (List Assignment × Bound)
  | bound, [] => return ([], bound)
  | bound, id :: rest => do
    let expression ← assignment g bound id
    let name ← nameFor g id
    let (others, final) ← assignAll g ((id, name) :: bound) rest
    return (⟨id, name, bound, expression⟩ :: others, final)

/-- The expressions that a loop evaluates on each pass for what they do, without repetition. -/
def passInputTexts (g : Graph) (loop : String) : List String → Build (List String)
  | [] => return []
  | handle :: rest => do
    let text ← inlineInput g (g.inputEdge? loop (some handle)) ""
    let others ← passInputTexts g loop rest
    return if text.isEmpty then others else text :: others.filter (· != text)

/-- The handles at which a loop takes inputs of its own. -/
def passHandles (g : Graph) (loop : String) : List String :=
  match g.node? loop with
  | some ⟨_, _, .operator _ _ inputs⟩ => inputs
  | _ => []

/-- The loop that computes a governed root. Temporaries of loops before it keep the values of their
last pass. -/
def loopBlock (g : Graph) (governed : List Graph.Governed) (free : Bound) (defaultCap : Nat)
    (root : Root) (loop : String) : Build LoopBlock := do
  let input (handle : String) := g.inputEdge? loop (some handle)
  let condition ← inlineInput g (input "cond") "False"
  let limit ← (Number.int defaultCap).source
  let cap ← inlineInput g (input "max") limit
  let passInputs ← passInputTexts g loop (passHandles g loop)
  let signals := loopSignals.filterMap input
  let foreign := (← get).looped.filter fun (id, _) => governed.lookup id != some loop
  let nodes := g.order (governedClosure g governed loop (root.node :: signals.map (·.source)))
  let (body, bound) ← assignAll g (foreign ++ free) (nodes.filter (needsTemporary g governed))
  modify fun p => { p with looped := body.map (fun a => (a.node, a.name)) ++ p.looped }
  let test (handle : String) : Except TooManyDigits (Option String) :=
    (input handle).mapM fun e => render g bound (e.source, e.sourceHandle)
  return {
    root, loop, condition, cap, passInputs, body, bound
    continueTest := ← test "cont"
    breakTest := ← test "brk"
    result := ← render g bound (root.node, none) }

/-- The code of roots, in order. -/
def rootCodes (g : Graph) (governed : List Graph.Governed) (free : Bound) (defaultCap : Nat) :
    List Root → Build (List RootCode)
  | [] => return []
  | root :: rest => do
    let code ← match governed.lookup root.node with
      | none => pure (.direct root (← render g free (root.node, none)))
      | some loop => RootCode.looped <$> loopBlock g governed free defaultCap root loop
    return code :: (← rootCodes g governed free defaultCap rest)

/-- The program of a graph, step by step. Without roots nothing is computed at all. -/
def buildProgram (g : Graph) (defaultCap : Nat) : Build Program := do
  if g.roots.isEmpty then return ⟨[], []⟩
  let governed := g.governed
  let freeIds := g.ids.filter fun id => (governed.lookup id).isNone
  let assigned := (g.order freeIds).filter (needsTemporary g governed)
  let (free, bound) ← assignAll g [] assigned
  return ⟨free, ← rootCodes g governed bound defaultCap g.roots⟩

/-- The program of a graph whose loops take at most so many passes unless they say otherwise. -/
def program (g : Graph) (defaultCap : Nat) : Except TooManyDigits Program :=
  (buildProgram g defaultCap).run' ⟨[], [], []⟩

end NodeFlow.Code
