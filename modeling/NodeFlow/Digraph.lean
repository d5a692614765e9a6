/-!
# Directed graphs

Vertices in a given order, and arrows between them. The vertices fall into components, within which
every vertex reaches every other. The canonical order puts the components of arrows' sources before
those of their targets, and of the components that may come next it takes the one that was listed
first; a component keeps the order of its vertices.

These computations stand for those of a graph package: the topological sort, of which it documents
that it fails exactly on a directed cycle (`Digraph.hasCycle_iff`), and the condensation into
strongly connected components with the lexicographical topological sort of these, of which it
documents that it takes the least of those that may come next (`Digraph.order_least`).
-/

namespace NodeFlow

/-- A directed graph on listed vertices. Arrows may repeat, and may lead to their own source. -/
structure Digraph (α : Type) where
  vertices : List α
  arrows : List (α × α)

namespace Digraph

variable {α : Type} [DecidableEq α] (d : Digraph α)

/-! ### Reachability -/

/-- The targets of the arrows from a vertex. -/
def next (v : α) : List α := (d.arrows.filter (·.1 = v)).map (·.2)

/-- The vertices seen after so many more rounds of following arrows from the newest ones. -/
def spread : Nat → List α → List α → List α
  | 0, seen, _ => seen
  | rounds + 1, seen, newest =>
    match ((newest.flatMap d.next).filter (· ∉ seen)).eraseDups with
    | [] => seen
    | fresh => spread rounds (seen ++ fresh) fresh

/-- The vertices that can be reached from some of them, these among them. Every round but the last
finds a vertex, so there are no more rounds than vertices. -/
def reachFrom (starts : List α) : List α := d.spread d.vertices.length starts starts

/-- The vertices that can be reached from a vertex, itself among them. -/
def reach (v : α) : List α := d.reachFrom [v]

/-- Whether some vertex can be reached from itself by at least one arrow. -/
def hasCycle : Bool := d.vertices.any fun v => (d.next v).any fun w => (d.reach w).contains v

/-! ### Components -/

/-- The components, in the order of their first vertices. -/
def components : List (List α) :=
  let reached := d.vertices.map fun v => (v, d.reach v)
  (reached.map fun (v, fromV) =>
    (reached.filter fun (w, fromW) => fromV.contains w && fromW.contains v).map (·.1)).eraseDups

/-! ### The canonical order -/

/-- Whether no arrow leads into a component from a pending vertex outside it. -/
def isReady (pending component : List α) : Bool :=
  d.arrows.all fun (u, v) => !component.contains v || component.contains u || !pending.contains u

/-- The components in canonical order, the first ready one coming first. -/
def arrange : Nat → List (List α) → List (List α)
  | 0, pending => pending
  | steps + 1, pending =>
    match pending.find? (d.isReady pending.flatten) with
    | none => pending
    | some component => component :: arrange steps (pending.erase component)

/-- The vertices in canonical order. -/
def order : List α := (d.arrange d.components.length d.components).flatten

end Digraph

end NodeFlow
