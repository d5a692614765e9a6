import NodeFlow.Proofs.Graph.Report
import NodeFlow.Proofs.Preview.Evaluate

/-!
# What the warning of a cycle is worth

A report warns of a directed cycle, and says that the nodes on it evaluate to nothing.  That is so
where every edge of the cycle brings a value that its target's value is made of (`evaluate_cycle`).
The report counts all edges, though, and a cycle that closes over the body of a loop takes no value
from any node (`primed_keeps_values`).
-/

open Relation

namespace NodeFlow

namespace Graph

variable (g : Graph)

/-- An edge is in effect if the value of its target is made of what it brings: it belongs to no
loop's body, and it is the last edge into an input that its target has. -/
def InEffect (e : Edge) : Prop := ∃ n, g.node? e.target = some n ∧ e ∈ (g.origin n).edges

/-- `g.Leads id other`: an edge runs from one node to the other. -/
def Leads (id other : String) : Prop := ∃ e ∈ g.edges, e.source = id ∧ e.target = other

/-- `g.Feeds id other`: an edge in effect runs from one node to the other. -/
def Feeds (id other : String) : Prop :=
  ∃ e ∈ g.edges, g.InEffect e ∧ e.source = id ∧ e.target = other

variable {g} {id other : String}

/-- The nodes that feed a node are those it depends on. -/
theorem feeds_iff : g.Feeds id other ↔ g.Depends other id := by
  constructor
  · rintro ⟨e, -, ⟨n, hn, he⟩, rfl, rfl⟩
    exact depends_source hn he
  · intro h
    obtain ⟨n, hn⟩ := h.exists_node
    obtain ⟨e, he, rfl⟩ := (depends_iff hn).1 h
    obtain ⟨hedge, rfl⟩ := mem_edges_of_origin hn he
    exact ⟨e, hedge, ⟨n, hn, he⟩, rfl, rfl⟩

theorem onCycle_iff : g.OnCycle id ↔ TransGen g.Feeds id id := by
  have hswap : g.Feeds = Function.swap g.Depends := by
    funext a b
    exact propext feeds_iff
  rw [hswap, transGen_swap, OnCycle]

theorem OnCycle.mem_ids (h : g.OnCycle id) : id ∈ g.ids := by
  obtain ⟨other, hd, -⟩ := TransGen.head'_iff.1 h
  obtain ⟨n, hn⟩ := hd.exists_node
  exact mem_ids_of_node? hn

end Graph

namespace Preview

variable {g : Graph} {record : Value} {id : String}

/-- A loop leaves nothing in a root whose value is nothing. -/
theorem left_null {V : String → Value} (h : V id = .null) (cap : Int) (loop : String) :
    left g V cap loop id = .null := by
  rw [left_eq, h]
  dsimp only
  split_ifs <;> rfl

/-- **Nodes on a cycle of edges in effect evaluate to nothing.**  The report on a graph with such a
cycle warns of it, and unless the maximum of a loop that governs a root is an integer too large for
a double, evaluation gives each node on the cycle the value nothing, whatever loops govern it. -/
theorem evaluate_cycle (h : TransGen g.Feeds id id) (record : Value) (cap : Int)
    (limit : ∀ root ∈ g.roots, ∀ loop ∈ g.loopOf? root.node,
      HasPassLimit g (g.value record) loop) :
    "WARN: Cycle detected in the graph (nodes on it evaluate to None)." ∈
        g.report.map Finding.message ∧
      ∃ values, evaluate g record cap = .ok values ∧ values.lookup id = some .null := by
  have cycle := Graph.onCycle_iff.2 h
  have arrows : TransGen g.digraph.Arrow id id :=
    Graph.transGen_arrow_of_depends cycle cycle.mem_ids
  have nothing : g.value record id = .null := Graph.value_of_circular cycle.circular
  refine ⟨List.mem_map_of_mem (Graph.cyclic_mem_report arrows), _, evaluate_eq limit, ?_⟩
  rw [List.lookup_graph _ (Graph.mem_distinctIds.2 cycle.mem_ids), lookup_leftInRoots, nothing]
  split
  · cases g.loopOf? id with
    | none => rfl
    | some loop => exact congrArg some (left_null nothing cap loop)
  · rfl

theorem evaluate_cycle_knot :
    TransGen knot.Feeds "sum" "sum" ∧
    (∀ root ∈ knot.roots, ∀ loop ∈ knot.loopOf? root.node,
      HasPassLimit knot (knot.value .null) loop) ∧
    ∃ values, evaluate knot .null 10 = .ok values ∧ values.lookup "sum" = some .null := by
  have sum : knot.Feeds "sum" "product" := Graph.feeds_iff.2 (by decide)
  have product : knot.Feeds "product" "sum" := Graph.feeds_iff.2 (by decide)
  have cycle : TransGen knot.Feeds "sum" "sum" := .tail (.single sum) product
  have limit : ∀ root ∈ knot.roots, ∀ loop ∈ knot.loopOf? root.node,
      HasPassLimit knot (knot.value .null) loop := by decide
  exact ⟨cycle, limit, (evaluate_cycle cycle .null 10 limit).2⟩

/-- A loop whose condition is the negation that it governs. -/
def primed : Graph where
  nodes := [⟨"loop", none, .operator "while_loop" none []⟩,
    ⟨"ready", none, .operator "not" none []⟩]
  edges := [⟨none, "loop", some "body", "ready", none⟩, ⟨none, "ready", none, "loop", some "cond"⟩]
  metadata := []

/-- Both nodes lie on the cycle that is warned of, and both have a value. -/
theorem primed_keeps_values :
    "WARN: Cycle detected in the graph (nodes on it evaluate to None)." ∈
        primed.report.map Finding.message ∧
      (∀ id ∈ primed.ids, TransGen primed.Leads id id) ∧
      evaluate primed .null 10 = .ok [("loop", .bool true), ("ready", .bool true)] := by
  have body : primed.Leads "loop" "ready" := ⟨_, List.mem_cons_self, rfl, rfl⟩
  have condition : primed.Leads "ready" "loop" :=
    ⟨_, List.mem_cons_of_mem _ List.mem_cons_self, rfl, rfl⟩
  refine ⟨by decide, ?_, by decide⟩
  intro id hid
  have hid : id = "loop" ∨ id = "ready" := by simpa [Graph.ids, primed] using hid
  rcases hid with rfl | rfl
  · exact .tail (.single body) condition
  · exact .tail (.single condition) body

end Preview

end NodeFlow
