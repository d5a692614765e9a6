import NodeFlow.Graph.Report
import NodeFlow.Proofs.Digraph.Reach
import NodeFlow.Proofs.Graph.Order

/-!
# What a report says

A graph has no fault exactly if its nodes have names of their own and each edge leads from a node to
one that takes input (`isSound_iff`), and a report tells of a fault exactly where there is one
(`isSound_iff_filter`).  All else that a report can say is a doubt at most.  It says that a graph is
acyclic exactly if no directed cycle runs along the edges between its nodes
(`mem_messages_acyclic_iff`).
-/

open Relation

namespace NodeFlow

/-! ### Messages -/

namespace Finding

variable {f f' : Finding}

theorem severity_eq_of_message_eq (h : f.message = f'.message) : f.severity = f'.severity := by
  have hword (s : Severity) : ∃ c rest, (severityWord s).toList = c :: rest := by
    cases s <;> exact ⟨_, _, rfl⟩
  have hhead :
      (severityWord f.severity).toList.head? = (severityWord f'.severity).toList.head? := by
    have heads := congrArg (·.toList.head?) h
    obtain ⟨c, rest, hc⟩ := hword f.severity
    obtain ⟨c', rest', hc'⟩ := hword f'.severity
    simpa [message, String.toList_append, hc, hc'] using heads
  revert hhead
  cases f.severity <;> cases f'.severity <;> decide

theorem text_eq_of_message_eq (h : f.message = f'.message) : f.text = f'.text := by
  rw [message, message, severity_eq_of_message_eq h] at h
  exact (String.append_right_inj _).1 h

/-- No other finding is worded like that. -/
theorem message_eq_acyclic_iff : f.message = acyclic.message ↔ f = .acyclic := by
  constructor
  · intro h
    have hseverity := severity_eq_of_message_eq h
    have htext := text_eq_of_message_eq h
    cases f <;> first | rfl | exact absurd htext (by decide) | cases hseverity
  · exact congrArg message

/-- Whether a finding tells of cycles. -/
def tellsOfCycles (f : Finding) : Bool := f = .acyclic ∨ f = .cyclic

theorem tellsOfCycles_eq_false (hacyclic : f ≠ .acyclic) (hcyclic : f ≠ .cyclic) :
    f.tellsOfCycles = false := by
  simp [tellsOfCycles, hacyclic, hcyclic]

/-- A doubt about one node or edge. -/
structure IsDetail (f : Finding) : Prop where
  severity : f.severity = .doubt
  ne_cyclic : f ≠ .cyclic

end Finding

theorem Node.takesInput_iff {n : Node} :
    n.takesInput = true ↔ n.kind ≠ .field ∧ n.kind ≠ .const := by
  rw [takesInput, kind]
  cases n.content <;> simp

namespace Graph

variable {g : Graph} {id : String} {e : Edge} {f : Finding}

theorem length_distinctIds : g.distinctIds.length = g.nodes.length ↔ g.ids.Nodup := by
  have hsubset : g.distinctIds ⊆ g.ids := fun id => mem_distinctIds.1
  have hsubset' : g.ids ⊆ g.distinctIds := fun id => mem_distinctIds.2
  have hperm : g.distinctIds.Subperm g.ids := (nodup_eraseDups g.ids).subperm hsubset
  rw [← length_ids]
  constructor
  · intro h
    exact (hperm.perm_of_length_le h.ge).nodup_iff.1 (nodup_eraseDups g.ids)
  · intro h
    exact (hperm.antisymm (h.subperm hsubset')).length_eq

theorem hasDistinctIds_iff : g.hasDistinctIds = true ↔ g.ids.Nodup := by
  rw [hasDistinctIds, beq_iff_eq, length_distinctIds]

/-! ### Doubts -/

theorem isDetail_of_mem_inputDoubts {before : List (String × Option String)} {target : Node}
    (h : f ∈ inputDoubts before target e) : f.IsDetail := by
  rw [inputDoubts] at h
  split at h
  · cases h
  · rcases List.mem_append.1 h with h | h
    · split at h
      · rw [List.mem_singleton.1 h]
        exact ⟨rfl, nofun⟩
      · cases h
    · split at h
      · rw [List.mem_singleton.1 h]
        exact ⟨rfl, nofun⟩
      · cases h

theorem isDetail_of_mem_typeDoubt {source target : Node} (h : f ∈ typeDoubt source target e) :
    f.IsDetail := by
  simp only [typeDoubt] at h
  split at h
  · cases h
  · rw [List.mem_singleton.1 h]
    exact ⟨rfl, nofun⟩

theorem isDetail_of_mem_edgeDoubts {before : List (String × Option String)} {edges : List Edge}
    (h : f ∈ g.edgeDoubts before edges) : f.IsDetail := by
  induction edges generalizing before with
  | nil => cases h
  | cons e rest ih =>
    rw [edgeDoubts] at h
    split at h
    · split at h
      · exact ih h
      · rcases List.mem_append.1 h with h | h
        · rcases List.mem_append.1 h with h | h
          · exact isDetail_of_mem_inputDoubts h
          · exact isDetail_of_mem_typeDoubt h
        · exact ih h
    · exact ih h

theorem isDetail_of_mem_operatorDoubts (h : f ∈ g.operatorDoubts) : f.IsDetail := by
  obtain ⟨n, -, hf⟩ := List.mem_filterMap.1 h
  split at hf
  · split at hf
    · rw [← Option.some.inj hf]
      exact ⟨rfl, nofun⟩
    · cases hf
  · cases hf

theorem isDetail_of_mem_loopDoubts (h : f ∈ g.loopDoubts) : f.IsDetail := by
  obtain ⟨n, -, hf⟩ := List.mem_filterMap.1 h
  split at hf
  · rw [← Option.some.inj hf]
    exact ⟨rfl, nofun⟩
  · cases hf

theorem isDetail_of_mem_doubts
    (h : f ∈ g.operatorDoubts ++ g.edgeDoubts [] g.edges ++ g.loopDoubts) : f.IsDetail := by
  rcases List.mem_append.1 h with h | h
  · rcases List.mem_append.1 h with h | h
    · exact isDetail_of_mem_operatorDoubts h
    · exact isDetail_of_mem_edgeDoubts h
  · exact isDetail_of_mem_loopDoubts h

/-! ### Parts of a report -/

theorem filter_orFine {p : Finding → Bool} {fine : Finding} {findings : List Finding}
    (h : p fine = false) : (orFine fine findings).filter p = findings.filter p := by
  rw [orFine]
  split
  · next hempty => rw [List.isEmpty_iff.1 hempty, List.filter_cons_of_neg (by simp [h])]
  · rfl

/-- A part of a report that leaves out doubts about nodes and edges, and remarks that there are
none. -/
theorem filter_report (p : Finding → Bool) (hedges : p .edgesFine = false)
    (hoperators : p .operatorsFine = false) (hdetail : ∀ f : Finding, f.IsDetail → p f = false) :
    g.report.filter p = [g.idFinding].filter p ++ (g.edges.filterMap g.edgeFault).filter p ++
      [g.cycleFinding].filter p := by
  have hdoubts : (g.operatorDoubts ++ g.edgeDoubts [] g.edges ++ g.loopDoubts).filter p = [] :=
    List.filter_eq_nil_iff.2 fun f hf => by simp [hdetail f (isDetail_of_mem_doubts hf)]
  rw [report, List.filter_append, List.filter_append, List.filter_append, filter_orFine hedges,
    filter_orFine hoperators, hdoubts, List.append_nil]

/-! ### Faults -/

theorem edgeFault_severity (h : g.edgeFault e = some f) : f.severity = .fault := by
  rw [edgeFault] at h
  split at h
  · split at h
    · cases h
    · rw [← Option.some.inj h]
      rfl
  · rw [← Option.some.inj h]
    rfl

theorem edgeFault_eq_none_iff : g.edgeFault e = none ↔
    e.source ∈ g.ids ∧ ∃ n, g.node? e.target = some n ∧ n.takesInput = true := by
  rw [← node?_isSome_iff, edgeFault]
  cases g.node? e.source <;> cases g.node? e.target <;> simp

/-- The faults of a report. -/
theorem filter_report_fault : g.report.filter (·.severity == .fault) =
    (if g.ids.Nodup then [] else [.idsRepeated]) ++ g.edges.filterMap g.edgeFault := by
  have hids : [g.idFinding].filter (·.severity == .fault) =
      if g.ids.Nodup then [] else [.idsRepeated] := by
    rw [idFinding]
    simp only [hasDistinctIds_iff]
    split <;> rfl
  have hedges : (g.edges.filterMap g.edgeFault).filter (·.severity == .fault) =
      g.edges.filterMap g.edgeFault := by
    refine List.filter_eq_self.2 fun f hf => ?_
    obtain ⟨e, -, he⟩ := List.mem_filterMap.1 hf
    rw [edgeFault_severity he]
    rfl
  have hcycles : [g.cycleFinding].filter (·.severity == .fault) = [] := by
    rw [cycleFinding]
    split <;> rfl
  rw [filter_report _ rfl rfl fun f hf => by rw [hf.severity]; rfl, hids, hedges, hcycles,
    List.append_nil]

theorem isSound_iff : g.isSound = true ↔ g.ids.Nodup ∧
    ∀ e ∈ g.edges, e.source ∈ g.ids ∧ ∃ n, g.node? e.target = some n ∧ n.takesInput = true := by
  simp only [isSound, Bool.and_eq_true, hasDistinctIds_iff, List.all_eq_true,
    Option.isNone_iff_eq_none, edgeFault_eq_none_iff]

/-- The verdict on a graph is that of its report. -/
theorem isSound_iff_filter :
    g.isSound = true ↔ g.report.filter (·.severity == .fault) = [] := by
  have hids : (if g.ids.Nodup then [] else [Finding.idsRepeated]) = [] ↔ g.ids.Nodup := by
    split <;> simp [*]
  rw [filter_report_fault, List.append_eq_nil_iff, hids, List.filterMap_eq_nil_iff, isSound_iff]
  simp only [edgeFault_eq_none_iff]

/-! ### Cycles -/

theorem cycleFinding_eq_acyclic_iff :
    g.cycleFinding = .acyclic ↔ ∀ id, ¬ TransGen g.digraph.Arrow id id := by
  rw [cycleFinding, ← not_exists, ← Digraph.hasCycle_iff closed_digraph]
  split <;> simp [*]

/-- One finding of a report tells of cycles. -/
theorem filter_report_cycles : g.report.filter (·.tellsOfCycles) = [g.cycleFinding] := by
  have hids : [g.idFinding].filter (·.tellsOfCycles) = [] := by
    rw [idFinding]
    split <;> rfl
  have hedges : (g.edges.filterMap g.edgeFault).filter (·.tellsOfCycles) = [] := by
    refine List.filter_eq_nil_iff.2 fun f hf => ?_
    obtain ⟨e, -, he⟩ := List.mem_filterMap.1 hf
    have hfault := edgeFault_severity he
    rw [Finding.tellsOfCycles_eq_false (by rintro rfl; cases hfault) (by rintro rfl; cases hfault)]
    decide
  have hcycles : [g.cycleFinding].filter (·.tellsOfCycles) = [g.cycleFinding] := by
    rw [cycleFinding]
    split <;> rfl
  have hdetail (f : Finding) (hf : f.IsDetail) : f.tellsOfCycles = false := by
    refine Finding.tellsOfCycles_eq_false ?_ hf.ne_cyclic
    rintro rfl
    cases hf.severity
  rw [filter_report _ rfl rfl hdetail, hids, hedges, hcycles]
  rfl

/-- The last finding alone tells of cycles. -/
theorem acyclic_mem_report_iff : .acyclic ∈ g.report ↔ g.cycleFinding = .acyclic := by
  have h : .acyclic ∈ g.report ↔ .acyclic ∈ g.report.filter (·.tellsOfCycles) := by
    simp [Finding.tellsOfCycles]
  rw [h, filter_report_cycles, List.mem_singleton, eq_comm]

/-- A report says that a graph is acyclic exactly if it is. -/
theorem mem_messages_acyclic_iff : "OK: Graph is acyclic." ∈ g.report.map Finding.message ↔
    ∀ id, ¬ TransGen g.digraph.Arrow id id := by
  rw [← cycleFinding_eq_acyclic_iff, ← acyclic_mem_report_iff]
  constructor
  · intro h
    obtain ⟨f, hf, hmessage⟩ := List.mem_map.1 h
    rwa [← Finding.message_eq_acyclic_iff.1 hmessage]
  · exact List.mem_map_of_mem

/-- A report warns of a directed cycle. -/
theorem cyclic_mem_report (h : TransGen g.digraph.Arrow id id) : .cyclic ∈ g.report := by
  refine List.mem_append_right _ (List.mem_singleton.2 ?_)
  rw [cycleFinding, if_pos ((Digraph.hasCycle_iff closed_digraph).2 ⟨id, h⟩)]

end Graph

end NodeFlow
