import NodeFlow.Graph.Origin
import NodeFlow.Value.Path

/-!
# The value of a node

The value of a node for an input record, computed from the values of the nodes that it depends on.
Values are kept in a memo once they are known. A node that depends on itself has no value, and
neither has any node that depends on it; asking for one is answered with the node at which the
cycle was noticed.
-/

namespace NodeFlow.Preview

/-- The values known so far, in the order in which they came to be known. -/
abbrev Memo := List (String × Value)

/-- A cycle was noticed at a node. -/
structure Cycle where
  node : String
deriving DecidableEq, Repr

/-- The wording of the notice. -/
def Cycle.message (c : Cycle) : String := "Cycle detected at node '" ++ c.node ++ "'"

/-- What is kept while nodes are asked for: the values known so far, and the nodes whose values are
being computed, the newest first. -/
structure Context where
  memo : Memo
  visiting : List String
deriving Inhabited

namespace Context

/-- The context in which nothing was asked for yet. -/
def empty : Context := ⟨[], []⟩

/-- The value of one more node is being computed. -/
def enter (id : String) (c : Context) : Context := { c with visiting := id :: c.visiting }

/-- The value of a node is not being computed any more. -/
def leave (id : String) (c : Context) : Context := { c with visiting := c.visiting.erase id }

/-- The value of one more node is known. -/
def remember (id : String) (value : Value) (c : Context) : Context :=
  { c with memo := c.memo ++ [(id, value)] }

end Context

/-- A computation that may notice a cycle, and keeps the context either way. -/
abbrev Visit (α : Type) := ExceptT Cycle (StateM Context) α

/-- A computation for which nothing is being visited when it starts, so that the memo is all it
needs. -/
abbrev Computation (α : Type) := ExceptT Cycle (StateM Memo) α

section Origins

variable {m : Type → Type} [Monad m]

/-- What an edge brings, nothing when there is none. -/
def brought (ask : String → m Value) : Option Edge → m Value
  | none => pure .null
  | some e => ask e.source

/-- The value of an operator for the values at its ports; nothing when it has none. -/
def applied (op : Operator) (args : List (String × Value)) : Value :=
  (op.eval fun port => (args.lookup port).getD .null).toOption.getD .null

/-- The value that comes from an origin, given a way to ask for the values of other nodes. -/
def originValue (record : Value) (ask : String → m Value) : Origin → m Value
  | .path path => pure (record.follow path)
  | .constant value _ => pure value
  | .operation op inputs => do
    let args ← inputs.mapM fun (port, e) => do return (port, ← brought ask e)
    return applied op args
  | .edge e => brought ask e
  | .unknown => pure .null

end Origins

/-- A graph that is evaluated for a record, and the nodes known to have no value. -/
structure Setting where
  graph : Graph
  record : Value
  failed : List String

/-- Does something while a node counts as being visited, and leaves the node however that ends. -/
def during {α : Type} (id : String) (x : Visit α) : Visit α := ExceptT.mk do
  modify (·.enter id)
  let outcome ← x.run
  modify (·.leave id)
  return outcome

/-- The value of a node of a given name. Each step down visits one more node, so the depth never
exceeds the number of nodes. -/
def visit (s : Setting) : Nat → String → Visit Value
  | 0, id => throw ⟨id⟩
  | depth + 1, id => do
    let context ← get
    match context.memo.lookup id with
    | some value => return value
    | none =>
      match s.graph.node? id with
      | none => return .null
      | some n =>
        if context.visiting.contains id || s.failed.contains id then throw ⟨id⟩
        let value ← during id (originValue s.record (visit s depth) (s.graph.origin n))
        modify (·.remember id value)
        return value

/-- Asks for the value of a node in a context. A name that is no node's stands for nothing. -/
def ask (s : Setting) (id : String) : Visit Value := visit s (s.graph.nodes.length + 1) id

/-- The value of a node, asked for when nothing is being visited. -/
def compute (s : Setting) (id : String) : Computation Value := ExceptT.mk fun memo =>
  let (outcome, context) := (ask s id).run ⟨memo, []⟩
  (outcome, context.memo)

end NodeFlow.Preview
