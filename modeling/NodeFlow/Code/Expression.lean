import NodeFlow.Graph.Origin
import NodeFlow.Text.Fallback
import NodeFlow.Value.Constant

/-!
# The expression of a node

The expression of generated code for a node, with the expressions of the nodes that it depends on
written out inside it. Expressions are kept in a memo once they are known. Where a node turns out to
depend on itself, a mark stands in the place of its expression. Where a constant turns out to have
an integer of too many digits, nothing is written of the node or of those that depend on it.
-/

namespace NodeFlow.Code

/-- The expression for nothing. -/
def nothing : String := "None"

/-- The mark that stands where a cycle was noticed. Its comment ends with the line, so that it can
stand inside any expression. -/
def cycleMark : String := "(None  # cycle\n)"

/-- A node and the output of it that is wanted. -/
abbrev Key := String × Option String

/-- The expressions known so far. -/
abbrev Memo := List (Key × String)

/-- Writing something with a memo at hand, which keeps the expressions that were known when the
writing came upon an integer of too many digits. -/
abbrev Writing (α : Type) := ExceptT TooManyDigits (StateM Memo) α

/-- The expression of what an edge brings. -/
def brought (ask : Key → Writing String) : Option Edge → Writing String
  | none => pure nothing
  | some e => ask (e.source, e.sourceHandle)

/-- The output of an operator that is meant by a handle: the default one if the handle is missing or
empty. -/
def meantOutput (op : Operator) (handle : Option String) : String :=
  Text.orElse (handle.getD "") op.output.id

/-- The code of an operator for the expressions at its ports. -/
def applied (op : Operator) (handle : Option String) (args : List (String × String)) : String :=
  match op.template.fill? fun port => args.lookup port with
  | some code => code.select (some (meantOutput op handle))
  | none => nothing

/-- The expression for a field of the record. -/
def fieldText (path : String) : String := "get_nested(row, " ++ Text.quote path ++ ")"

/-- The expression for an output of what comes from an origin, given a way to ask for the
expressions of other nodes. -/
def originText (handle : Option String) (ask : Key → Writing String) : Origin → Writing String
  | .path path => pure (fieldText path)
  | .constant value dtype => ExceptT.mk (pure (Constant.source dtype value))
  | .operation op inputs => do
    let args ← inputs.mapM fun (port, e) => do return (port, ← brought ask e)
    return applied op handle args
  | .edge e => brought ask e
  | .unknown => pure nothing

/-- The handle under which an expression is kept: for an operator of the catalog the default output
has one name. -/
def keptHandle (origin : Origin) (handle : Option String) : Option String :=
  match origin, handle with
  | .operation op _, none => some op.output.id
  | _, _ => handle

/-- The expression for an output of a node, with the outputs on the way to it. Each step down goes
along an edge and adds an output to the way, so the depth never exceeds the number of edges by more
than two. -/
def inlineFrom (g : Graph) : Nat → List Key → Key → Writing String
  | 0, _, _ => pure cycleMark
  | depth + 1, way, (id, handle) => do
    match g.node? id with
    | none => return nothing
    | some n =>
      let origin := g.origin n
      let key := (id, keptHandle origin handle)
      match (← get).lookup key with
      | some text => return text
      | none =>
        if way.contains key then return cycleMark
        let text ← originText key.2 (inlineFrom g depth (key :: way)) origin
        modify ((key, text) :: ·)
        return text

/-- The expression for an output of a node, everything written out. -/
def inline (g : Graph) (key : Key) : Writing String := inlineFrom g (g.edges.length + 2) [] key

end NodeFlow.Code
