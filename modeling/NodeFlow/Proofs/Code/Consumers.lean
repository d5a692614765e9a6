import NodeFlow.Proofs.Code.Rendering

/-!
# What the value of a node goes into

In a graph without loops a node that applies an operator has a temporary if it has two consumers or
one that applies an operator as well (`needsTemporary_of_consumers`).  What a node is made of can be
told from its kind.
-/

namespace NodeFlow.Code

variable {g : Graph} {id name : String} {n m : Node} {e : Edge}

/-! ### Graphs without loops -/

theorem governed_eq_nil (hloops : ∀ id, g.isLoop id = false) : g.governed = [] := by
  have hscope : g.edges.filter g.isScopeEdge = [] := by
    refine List.filter_eq_nil_iff.2 fun e _ => ?_
    simp [Graph.isScopeEdge, hloops]
  have hfirst : g.governedFirst = [] := by
    rw [Graph.governedFirst, hscope]
    rfl
  rw [Graph.governed, hfirst]
  cases g.nodes.length with
  | zero => rfl
  | succ steps => rfl

theorem loopOf?_eq_none (hloops : ∀ id, g.isLoop id = false) (id : String) :
    g.loopOf? id = none := by
  rw [Graph.loopOf?, governed_eq_nil hloops]
  rfl

/-! ### Consumers -/

/-- A node applies an operator of the catalog. -/
def Applies (g : Graph) (id : String) : Prop :=
  ∃ n name op, g.node? id = some n ∧ n.operator? = some name ∧ Catalog.lookup? name = some op

theorem Applies.kind_eq (h : Applies g id) (hn : g.node? id = some n) : n.kind = .operator := by
  obtain ⟨m, name, op, hm, hname, -⟩ := h
  obtain rfl := Option.some.inj (hm.symm.trans hn)
  obtain ⟨label, inputs, hcontent⟩ := Node.content_of_operator? hname
  rw [Node.kind, hcontent]

theorem Applies.kind_ne_output (h : Applies g id) (hn : g.node? id = some n) :
    n.kind ≠ .output := by
  rw [h.kind_eq hn]
  decide

theorem takesInput_of_kind (h : n.kind = .operator ∨ n.kind = .output) : n.takesInput = true := by
  rw [Node.kind] at h
  rw [Node.takesInput]
  cases hcontent : n.content with
  | operator | output => rfl
  | field | const => simp [hcontent] at h

theorem mem_consumers_iff : n ∈ consumers g id ↔
    ∃ e ∈ g.dataOut id, g.isLoop e.target = false ∧ g.node? e.target = some n ∧
      n.takesInput = true := by
  simp only [consumers, List.mem_filterMap, Option.ite_none_left_eq_some, Bool.not_eq_true,
    Option.filter_eq_some_iff]

theorem needsTemporary_of_consumers (hloops : ∀ id, g.isLoop id = false) (hid : Applies g id)
    (h : 2 ≤ (consumers g id).length ∨ ∃ c ∈ consumers g id, c.kind = .operator) :
    needsTemporary g g.governed id = true := by
  obtain ⟨n, name, op, hn, hname, hop⟩ := hid
  have hknown : ((g.node? id).any fun n => (n.operator?.bind Catalog.lookup?).isSome) = true := by
    simp [hn, hname, hop]
  rw [needsTemporary, hknown, hloops]
  simp only [Bool.not_true, Bool.or_self, Bool.false_eq_true, if_false, Bool.or_eq_true,
    decide_eq_true_eq, List.any_eq_true]
  rcases h with h | ⟨c, hc, hkind⟩
  · exact .inl (by omega)
  · exact .inr ⟨c, hc, .inl (beq_iff_eq.2 hkind)⟩

theorem applies_of_needsTemporary (h : needsTemporary g g.governed id = true) : Applies g id := by
  obtain ⟨n, hn, -⟩ := exists_node_of_needsTemporary h
  rw [needsTemporary, hn, Option.any_some] at h
  cases hname : n.operator? with
  | none => simp [hname] at h
  | some name =>
    cases hop : Catalog.lookup? name with
    | none => simp [hname, hop] at h
    | some op => exact ⟨n, name, op, hn, hname, hop⟩

theorem mem_dataOut_of_mem_dataIn (h : e ∈ g.dataIn id) :
    e ∈ g.dataOut e.source ∧ e.target = id := by
  obtain ⟨he, hin⟩ := List.mem_filter.1 h
  simp only [Bool.and_eq_true, beq_iff_eq] at hin
  exact ⟨List.mem_filter.2 ⟨he, by simpa using hin.2⟩, hin.1⟩

/-- A node that takes input consumes what the edges into it come from. -/
theorem mem_consumers_of_mem_dataIn (hloops : ∀ id, g.isLoop id = false) (hn : g.node? id = some n)
    (hinput : n.takesInput = true) (he : e ∈ g.dataIn id) : n ∈ consumers g e.source := by
  obtain ⟨hout, htarget⟩ := mem_dataOut_of_mem_dataIn he
  exact mem_consumers_iff.2 ⟨e, hout, hloops _, htarget ▸ hn, hinput⟩

/-! ### What nodes are made of -/

/-- A node that applies no operator of the catalog and is no output is made of nothing. -/
theorem origin_edges_eq_nil (hn : g.node? id = some n) (happlies : ¬ Applies g id)
    (houtput : n.kind ≠ .output) : (g.origin n).edges = [] := by
  rw [Graph.origin]
  cases hcontent : n.content with
  | field | const => rfl
  | output => exact absurd (by rw [Node.kind, hcontent]) houtput
  | operator name =>
    dsimp only
    cases hop : Catalog.lookup? name with
    | none => rfl
    | some op => exact absurd ⟨n, name, op, hn, by rw [Node.operator?, hcontent], hop⟩ happlies

end NodeFlow.Code
