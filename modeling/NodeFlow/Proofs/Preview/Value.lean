import NodeFlow.Preview.Compute
import NodeFlow.Proofs.Graph.Unfolding

/-!
# Bottom-up values

The value of a node is what its unfolding amounts to for a record, and nothing where a node has no
unfolding (`Graph.value`).  This is the one assignment of values to names that satisfies an equation
for each kind of node, with nothing at circular nodes (`isBottomUp_value`, `IsBottomUp.eq_value`).
-/

namespace NodeFlow

open Preview

mutual

/-- What an unfolding amounts to for a record. -/
def Unfolding.value (record : Value) : Unfolding → Value
  | .empty => .null
  | .path p => record.follow p
  | .constant value _ => value
  | .operation op inputs => applied op (Unfolding.inputValues record inputs)
  | .output _ source => source.value record
  | .unknown => .null

/-- What comes in at the ports of an operator. -/
def Unfolding.inputValues (record : Value) :
    List (String × Option String × Unfolding) → List (String × Value)
  | [] => []
  | (port, _, t) :: rest => (port, t.value record) :: Unfolding.inputValues record rest

end

theorem Unfolding.inputValues_eq (record : Value)
    (inputs : List (String × Option String × Unfolding)) :
    inputValues record inputs = inputs.map fun (port, _, t) => (port, t.value record) := by
  induction inputs with
  | nil => rfl
  | cons input rest ih =>
    obtain ⟨port, handle, t⟩ := input
    rw [inputValues, ih, List.map_cons]

namespace Preview

/-- What an edge brings when nodes have the given values, nothing when there is none. -/
def bringing (V : String → Value) (e : Option Edge) : Value := (e.map (V ·.source)).getD .null

/-- The value that comes from an origin when nodes have the given values. -/
def meaning (record : Value) (V : String → Value) : Origin → Value
  | .path path => record.follow path
  | .constant value _ => value
  | .operation op inputs => applied op (inputs.map fun (port, e) => (port, bringing V e))
  | .edge e => bringing V e
  | .unknown => .null

theorem value_ofEdge (record : Value) (children : String → Unfolding) (e : Option Edge) :
    (Unfolding.ofEdge children e).2.value record =
      bringing (fun m => (children m).value record) e := by
  cases e <;> simp only [Unfolding.ofEdge, Unfolding.value] <;> rfl

theorem value_ofOrigin (record : Value) (children : String → Unfolding) (origin : Origin) :
    (Unfolding.ofOrigin children origin).value record =
      meaning record (fun m => (children m).value record) origin := by
  cases origin with
  | path | constant | unknown =>
    simp only [Unfolding.ofOrigin, Unfolding.value]
    rfl
  | operation op inputs =>
    rw [Unfolding.ofOrigin, Unfolding.value, Unfolding.inputValues_eq, List.map_map, meaning]
    congr 1
    refine List.map_congr_left fun input _ => ?_
    exact congrArg (input.1, ·) (value_ofEdge record children input.2)
  | edge e =>
    rw [Unfolding.ofOrigin, Unfolding.value, value_ofEdge]
    rfl

theorem meaning_congr {record : Value} {V W : String → Value} {origin : Origin}
    (h : ∀ e ∈ origin.edges, V e.source = W e.source) :
    meaning record V origin = meaning record W origin := by
  have bringing_congr {e : Option Edge} (he : ∀ e' ∈ e, e' ∈ origin.edges) :
      bringing V e = bringing W e := by
    cases e with
    | none => rfl
    | some e => exact h e (he e rfl)
  cases origin with
  | path | constant | unknown => rfl
  | operation op inputs =>
    rw [meaning, meaning]
    congr 1
    refine List.map_congr_left ?_
    rintro ⟨port, e⟩ hinput
    dsimp only
    rw [bringing_congr fun e' he => List.mem_filterMap.2 ⟨(port, e), hinput, he⟩]
  | edge e => exact bringing_congr fun e' he => Option.mem_toList.2 he

end Preview

namespace Graph

variable (g : Graph) (record : Value)

/-- The value of a node, bottom-up: what its unfolding amounts to, nothing if it has none. -/
def value (id : String) : Value := ((g.unfolding? id).map (·.value record)).getD .null

/-- An assignment of values to names is bottom-up if it satisfies the equation of each node, with
nothing at circular nodes and at names that are no node's. -/
structure IsBottomUp (V : String → Value) : Prop where
  circular {id : String} : g.Circular id → V id = .null
  absent {id : String} : g.node? id = none → V id = .null
  field {id path : String} {n : Node} {dtype : Dtype} {label : Option String} :
    g.node? id = some n → n.content = .field path dtype label → V id = record.follow path
  const {id : String} {n : Node} {value : Value} {dtype : Dtype} {label : Option String} :
    g.node? id = some n → n.content = .const value dtype label → V id = value
  unknown {id op : String} {n : Node} {label : Option String} {own : List String} :
    g.node? id = some n → n.content = .operator op label own → Catalog.lookup? op = none →
      V id = .null
  operator {id op : String} {n : Node} {label : Option String} {own : List String}
      {o : Operator} :
    ¬ g.Circular id → g.node? id = some n → n.content = .operator op label own →
      Catalog.lookup? op = some o →
      V id = applied o (o.inputs.map fun p => (p.id, bringing V (g.inputEdge? id (some p.id))))
  output {id label : String} {n : Node} {result : Value} :
    ¬ g.Circular id → g.node? id = some n → n.content = .output label result →
      V id = bringing V (g.valueEdge? id)

variable {g record} {id : String} {n : Node} {t : Unfolding} {V : String → Value}

theorem value_of_unfolds (h : g.Unfolds id t) : g.value record id = t.value record := by
  rw [value, unfolding?_eq_some_iff.2 h]
  rfl

theorem value_of_circular (h : g.Circular id) : g.value record id = .null := by
  rw [value, unfolding?_eq_none_iff.2 h]
  rfl

theorem value_of_absent (h : g.node? id = none) : g.value record id = .null := by
  rw [value_of_unfolds (.absent h), Unfolding.value]

theorem value_of_node (hc : ¬ g.Circular id) (h : g.node? id = some n) :
    g.value record id = meaning record (g.value record) (g.origin n) := by
  obtain ⟨t, ht⟩ := exists_unfolds hc
  rw [value_of_unfolds ht]
  cases ht with
  | absent hn =>
    rw [h] at hn
    cases hn
  | node hn children unfolds =>
    rw [h] at hn
    obtain rfl := Option.some.inj hn
    rw [value_ofOrigin]
    exact meaning_congr fun e he => (value_of_unfolds (unfolds e he)).symm

theorem value_of_leaf (h : g.node? id = some n) (leaf : (g.origin n).edges = []) :
    g.value record id = meaning record (g.value record) (g.origin n) :=
  value_of_node (not_circular_of_leaf h leaf) h

/-- The values of nodes are bottom-up. -/
theorem isBottomUp_value (g : Graph) (record : Value) : g.IsBottomUp record (g.value record) where
  circular := value_of_circular
  absent := value_of_absent
  field {id path n dtype label} h content := by
    have origin : g.origin n = .path path := by rw [Graph.origin, content]
    rw [value_of_leaf h (by rw [origin]; rfl), origin, meaning]
  const {id n value dtype label} h content := by
    have origin : g.origin n = .constant value dtype := by rw [Graph.origin, content]
    rw [value_of_leaf h (by rw [origin]; rfl), origin, meaning]
  unknown {id op n label own} h content missing := by
    have origin : g.origin n = .unknown := by simp only [Graph.origin, content, missing]
    rw [value_of_leaf h (by rw [origin]; rfl), origin, meaning]
  operator {id op n label own o} hc h content found := by
    have origin : g.origin n =
        .operation o (o.inputs.map fun p => (p.id, g.inputEdge? id (some p.id))) := by
      simp only [Graph.origin, content, found, node?_id h]
    rw [value_of_node hc h, origin, meaning, List.map_map]
    rfl
  output {id label n result} hc h content := by
    have origin : g.origin n = .edge (g.valueEdge? id) := by
      simp only [Graph.origin, content, node?_id h]
    rw [value_of_node hc h, origin, meaning]

namespace IsBottomUp

theorem eq_meaning (hV : g.IsBottomUp record V) (hc : ¬ g.Circular id) (h : g.node? id = some n) :
    V id = meaning record V (g.origin n) := by
  unfold Graph.origin
  split
  · next content => exact hV.field h content
  · next content => exact hV.const h content
  · next content =>
    split
    · next missing => exact hV.unknown h content missing
    · next found =>
      rw [hV.operator hc h content found, meaning, List.map_map, node?_id h]
      rfl
  · next content => rw [hV.output hc h content, meaning, node?_id h]

theorem eq_of_unfolds (hV : g.IsBottomUp record V) (h : g.Unfolds id t) :
    V id = t.value record := by
  induction h with
  | absent hn => rw [hV.absent hn, Unfolding.value]
  | node hn children unfolds ih =>
    rw [hV.eq_meaning (Unfolds.node hn children unfolds).not_circular hn, value_ofOrigin]
    exact meaning_congr ih

/-- There is no other bottom-up assignment of values than `g.value record`. -/
theorem eq_value (hV : g.IsBottomUp record V) : V = g.value record := by
  funext id
  by_cases hc : g.Circular id
  · rw [hV.circular hc, value_of_circular hc]
  · obtain ⟨t, ht⟩ := exists_unfolds hc
    rw [hV.eq_of_unfolds ht, value_of_unfolds ht]

end IsBottomUp

end Graph

end NodeFlow
