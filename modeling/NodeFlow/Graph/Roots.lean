import NodeFlow.Catalog
import NodeFlow.Graph.Basic
import NodeFlow.Text.Fallback
import NodeFlow.Text.Slug

/-!
# The results of a graph

The roots of a graph are the nodes whose values it gives, each under a label. They are its outputs;
a graph without outputs gives the value of every node that no edge leaves, loops excepted, under
labels made of the nodes' slugs.
-/

namespace NodeFlow

/-- The name that a node goes by in generated code, possibly empty. -/
def Node.slug (n : Node) : String :=
  match n.content with
  | .field path _ label => Text.orElse (Text.slug (label.getD "")) (Text.slug path)
  | .const _ _ label => Text.orElse (Text.slug (label.getD "")) "const"
  | .operator op label _ =>
    let own := label.getD ""
    if own.isEmpty then
      match Catalog.lookup? op with
      | some o => Text.orElse (Text.slug o.label) (Text.slug o.id)
      | none => Text.slug op
    else Text.orElse (Text.slug own) (Text.slug op)
  | .output label _ => Text.slug label

/-- A node whose value a graph gives, and the label of the value. -/
structure Root where
  node : String
  label : String
deriving DecidableEq, Repr

/-- A base for the first label made from it, and the base with a number for later ones. -/
def numberedLabel (base : String) (k : Nat) : String :=
  if k = 0 then base else base ++ "_" ++ toString (k + 1)

/-- The first label made from a base that is not in use. One of the first labels is free, as there
are more of them than used ones. -/
def freeLabel (used : List String) (base : String) : String :=
  (((List.range (used.length + 1)).map (numberedLabel base)).find? (!used.contains ·)).getD base

namespace Graph

variable (g : Graph)

/-- The labels of outputs: an empty one is replaced by the output's number. -/
def outputRoots : List Root :=
  (g.nodes.filterMap fun n =>
    match n.content with
    | .output label _ => some (n.id, label)
    | _ => none).mapIdx fun i (id, label) => ⟨id, Text.orElse label ("result_" ++ toString (i + 1))⟩

/-- Whether a node gives a value that nothing uses. -/
def isSink (id : String) : Bool := (g.edgesFrom id).isEmpty && !g.isLoop id

/-- Labels nodes in order with labels that differ from each other and from those of the roots
before. -/
def labelSinks (before : List Root) : List Node → List Root
  | [] => before
  | n :: rest =>
    if before.any (·.node == n.id) then labelSinks before rest
    else
      let label := freeLabel (before.map (·.label)) (Text.orElse n.slug "result")
      labelSinks (before ++ [⟨n.id, label⟩]) rest

/-- The roots of a graph. -/
def roots : List Root :=
  if g.outputRoots.isEmpty then labelSinks [] (g.nodes.filter fun n => g.isSink n.id)
  else g.outputRoots

end Graph

end NodeFlow
