import NodeFlow.Graph.Origin

/-!
# What is wired to a node

The edges that a node's value is made of, in order and with the places where nothing is wired
(`Origin.wires`), and the inputs of a node that applies an operator of the catalog.
-/

namespace NodeFlow

/-- The edges that bring what a node's value is made of, in order, none where nothing is wired. -/
def Origin.wires : Origin → List (Option Edge)
  | operation _ inputs => inputs.map (·.2)
  | edge e => [e]
  | path _ | constant .. | unknown => []

theorem Origin.mem_edges_iff {origin : Origin} {e : Edge} :
    e ∈ origin.edges ↔ some e ∈ origin.wires := by
  cases origin with
  | path | constant | unknown => exact ⟨nofun, nofun⟩
  | operation op inputs => simp [edges, wires]
  | edge e' => simp [edges, wires, eq_comm]

theorem Graph.mem_edges_of_mem_dataIn {g : Graph} {id : String} {e : Edge} (h : e ∈ g.dataIn id) :
    e ∈ g.edges :=
  (List.mem_filter.1 h).1

theorem Graph.mem_dataIn_of_inputEdge? {g : Graph} {id : String} {handle : Option String} {e : Edge}
    (h : g.inputEdge? id handle = some e) : e ∈ g.dataIn id :=
  (List.mem_filter.1 (List.mem_of_getLast? h)).1

/-! ### The kind of a node -/

theorem Node.content_of_operator? {n : Node} {name : String} (h : n.operator? = some name) :
    ∃ label inputs, n.content = .operator name label inputs := by
  rw [operator?] at h
  cases hcontent : n.content with
  | operator name' label inputs =>
    rw [hcontent] at h
    exact ⟨label, inputs, by rw [Option.some.inj h]⟩
  | field | const | output =>
    rw [hcontent] at h
    cases h

theorem Graph.origin_of_operator {g : Graph} {n : Node} {name : String} {op : Operator}
    (hname : n.operator? = some name) (hop : Catalog.lookup? name = some op) :
    g.origin n = .operation op (op.inputs.map fun p => (p.id, g.inputEdge? n.id (some p.id))) := by
  obtain ⟨label, inputs, hcontent⟩ := Node.content_of_operator? hname
  rw [origin, hcontent]
  simp only [hop]

theorem Graph.origin_of_const {g : Graph} {n : Node} {value : Value} {dtype : Dtype}
    {label : Option String} (h : n.content = .const value dtype label) :
    g.origin n = .constant value dtype := by
  rw [origin, h]

theorem Graph.origin_of_output {g : Graph} {n : Node} (hkind : n.kind = .output) :
    g.origin n = .edge (g.valueEdge? n.id) := by
  rw [origin]
  rw [Node.kind] at hkind
  cases hcontent : n.content with
  | output => rfl
  | field | const | operator => simp [hcontent] at hkind

/-- A node whose value an edge brings is an output. -/
theorem Graph.kind_of_origin {g : Graph} {n : Node} {e : Option Edge} (h : g.origin n = .edge e) :
    n.kind = .output ∧ e = g.valueEdge? n.id := by
  rw [origin] at h
  rw [Node.kind]
  cases hcontent : n.content with
  | output =>
    rw [hcontent] at h
    exact ⟨rfl, (Origin.edge.inj h).symm⟩
  | field | const =>
    rw [hcontent] at h
    cases h
  | operator name =>
    rw [hcontent] at h
    dsimp only at h
    split at h <;> cases h

/-- A node that applies an operator of the catalog is wired at the inputs that this declares. -/
theorem Graph.exists_name_of_origin {g : Graph} {n : Node} {op : Operator}
    {inputs : List (String × Option Edge)} (h : g.origin n = .operation op inputs) :
    ∃ name, n.operator? = some name ∧ Catalog.lookup? name = some op ∧
      inputs = op.inputs.map fun p => (p.id, g.inputEdge? n.id (some p.id)) := by
  rw [origin] at h
  rw [Node.operator?]
  cases hcontent : n.content with
  | field | const | output =>
    rw [hcontent] at h
    cases h
  | operator name label passInputs =>
    rw [hcontent] at h
    dsimp only at h
    cases hlookup : Catalog.lookup? name with
    | none =>
      rw [hlookup] at h
      cases h
    | some op' =>
      rw [hlookup] at h
      cases h
      exact ⟨name, rfl, hlookup, rfl⟩

/-- What a node's value is made of comes by data edges into the node. -/
theorem Graph.mem_dataIn_of_origin {g : Graph} {n : Node} {e : Edge}
    (h : e ∈ (g.origin n).edges) : e ∈ g.dataIn n.id := by
  cases horigin : g.origin n with
  | path | constant | unknown =>
    rw [horigin] at h
    cases h
  | operation op inputs =>
    obtain ⟨name, -, -, rfl⟩ := exists_name_of_origin horigin
    rw [horigin] at h
    obtain ⟨input, hinput, he⟩ := List.mem_filterMap.1 h
    obtain ⟨p, -, rfl⟩ := List.mem_map.1 hinput
    exact mem_dataIn_of_inputEdge? he
  | edge e' =>
    rw [horigin] at h
    have he : e' = some e := Option.mem_toList.1 h
    exact List.mem_of_getLast? ((kind_of_origin horigin).2.symm.trans he)

end NodeFlow
