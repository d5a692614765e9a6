import NodeFlow.Code.Expression

/-!
# Expressions over temporaries

As the expressions of nodes, except that nodes whose values are already in variables are written as
the names of these.
-/

namespace NodeFlow.Code

/-- Nodes whose values are in variables, with the names of these. -/
abbrev Bound := List (String × String)

/-- The expression for an output of a node over bound names, with the nodes on the way to it. Each
step down adds a node to the way, so the depth never exceeds the number of nodes. -/
def renderFrom (g : Graph) (bound : Bound) : Nat → List String → Key → Writing String
  | 0, _, _ => pure cycleMark
  | depth + 1, way, (id, handle) => do
    match bound.lookup id with
    | some name => return name
    | none =>
      match g.node? id with
      | none => return nothing
      | some n =>
        match (← get).lookup (id, handle) with
        | some text => return text
        | none =>
          if way.contains id then return cycleMark
          let text ← originText handle (renderFrom g bound depth (id :: way)) (g.origin n)
          modify (((id, handle), text) :: ·)
          return text

/-- The expression for an output of a node over bound names. -/
def render (g : Graph) (bound : Bound) (key : Key) : Spelling :=
  ((renderFrom g bound (g.nodes.length + 1) [] key).run []).1

/-- The expression that a node's own variable is given, over bound names. -/
def assignment (g : Graph) (bound : Bound) (id : String) : Spelling :=
  match g.node? id with
  | none => .ok nothing
  | some n =>
    ((originText none (renderFrom g bound (g.nodes.length + 1) [id]) (g.origin n)).run []).1

end NodeFlow.Code
