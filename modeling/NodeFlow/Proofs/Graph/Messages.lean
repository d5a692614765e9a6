import NodeFlow.Proofs.Graph.Report

/-!
# The messages of a report

The errors among the messages of a report are one for repeated names, if there are any, and one for
each edge that is out of place, in the order of the edges.  One message of two tells whether there
is a cycle.  So the messages alone say whether a graph is sound (`report_exact`).
-/

open Relation

namespace NodeFlow

/-- Whether a message is an error. -/
def isError (message : String) : Bool := "ERR:".toList.isPrefixOf message.toList

namespace Finding

variable {f : Finding}

theorem isError_message : isError f.message = (f.severity == .fault) := by
  unfold isError message
  cases f.severity <;> simp [severityWord, List.isPrefixOf]

/-! ### The message about a cycle -/

theorem head?_append_ne {s t : String} {c : Char}
    (h : s.toList.head? ≠ some c ∧ s.toList.head?.isSome) : (s ++ t).toList.head? ≠ some c := by
  obtain ⟨d, hd⟩ := Option.isSome_iff_exists.1 h.2
  rw [String.toList_append, List.head?_append, hd, Option.some_or, ← hd]
  exact h.1

/-- No doubt but that about a cycle begins like it. -/
theorem head?_text_of_doubt (h : f.severity = .doubt) (hne : f ≠ .cyclic) :
    f.text.toList.head? ≠ some 'C' := by
  cases f with
  | idsUnique | idsRepeated | edgesFine | edgeDangling | edgeIntoSource | operatorsFine
  | acyclic => cases h
  | operatorUnknown | inputUnknown | inputShared | typesClash | loopIdle =>
    unfold text
    simp only [String.append_assoc]
    exact head?_append_ne (by decide)
  | cyclic => exact absurd rfl hne

theorem message_eq_cyclic_iff : f.message = cyclic.message ↔ f = .cyclic := by
  constructor
  · intro h
    by_contra hne
    have hseverity := severity_eq_of_message_eq h
    have htext := text_eq_of_message_eq h
    exact head?_text_of_doubt hseverity hne (by rw [htext]; decide)
  · exact congrArg message

end Finding

namespace Graph

variable {g : Graph} {e : Edge} {f : Finding}

/-! ### Errors -/

/-- An edge is in place: its ends are nodes, and the target is no field and no constant. -/
def InPlace (g : Graph) (e : Edge) : Prop :=
  e.source ∈ g.ids ∧ e.target ∈ g.ids ∧
    ∀ n ∈ g.node? e.target, n.kind ≠ .field ∧ n.kind ≠ .const

instance (g : Graph) : DecidablePred g.InPlace :=
  fun e => inferInstanceAs (Decidable (e.source ∈ g.ids ∧ e.target ∈ g.ids ∧ ∀ n ∈ _, _))

/-- The error about an edge that is out of place. -/
def edgeError (g : Graph) (e : Edge) : String :=
  "ERR: Edge " ++ e.source ++ "->" ++ e.target ++
    if e.source ∈ g.ids ∧ e.target ∈ g.ids then
      " targets a " ++ ((g.node? e.target).map (·.kind.name)).getD "" ++ " node."
    else " references missing node(s)."

theorem message_of_edge (e : Edge) (rest : String) :
    "ERR" ++ ": " ++ ("Edge " ++ Finding.edgeText e ++ rest) =
      "ERR: Edge " ++ e.source ++ "->" ++ e.target ++ rest := by
  have hword : "ERR: Edge " = "ERR" ++ ": " ++ "Edge " := by decide
  rw [hword, Finding.edgeText]
  simp only [String.append_assoc]

theorem edgeFault_eq_none_iff_inPlace : g.edgeFault e = none ↔ g.InPlace e := by
  have htarget : e.target ∈ g.ids ↔ (g.node? e.target).isSome := node?_isSome_iff.symm
  unfold InPlace
  rw [edgeFault_eq_none_iff, htarget]
  refine and_congr_right fun _ => ?_
  cases g.node? e.target with
  | none => simp
  | some n => simp [Node.takesInput_iff]

theorem message_of_edgeFault (h : g.edgeFault e = some f) : f.message = g.edgeError e := by
  rw [edgeFault] at h
  unfold edgeError
  split at h
  · next source target hsource htarget =>
    have hends : e.source ∈ g.ids ∧ e.target ∈ g.ids :=
      ⟨mem_ids_of_node? hsource, mem_ids_of_node? htarget⟩
    split at h
    · cases h
    · obtain rfl := Option.some.inj h
      rw [if_pos hends, htarget, ← message_of_edge]
      unfold Finding.message Finding.text
      simp only [String.append_assoc]
      rfl
  · next hnodes =>
    have hends : ¬ (e.source ∈ g.ids ∧ e.target ∈ g.ids) := by
      rintro ⟨hsource, htarget⟩
      obtain ⟨source, hsource⟩ := Option.isSome_iff_exists.1 (node?_isSome_iff.2 hsource)
      obtain ⟨target, htarget⟩ := Option.isSome_iff_exists.1 (node?_isSome_iff.2 htarget)
      exact hnodes source target hsource htarget
    obtain rfl := Option.some.inj h
    rw [if_neg hends, ← message_of_edge]
    rfl

/-- The messages about edges are the errors about those that are out of place. -/
theorem map_message_edgeFaults (edges : List Edge) :
    (edges.filterMap g.edgeFault).map Finding.message =
      (edges.filter fun e => ¬ g.InPlace e).map g.edgeError := by
  induction edges with
  | nil => rfl
  | cons e rest ih =>
    cases hfault : g.edgeFault e with
    | none =>
      have hplace := edgeFault_eq_none_iff_inPlace.1 hfault
      rw [List.filterMap_cons_none hfault, List.filter_cons_of_neg (by simpa using hplace), ih]
    | some f =>
      have hplace : ¬ g.InPlace e := fun h => by
        rw [edgeFault_eq_none_iff_inPlace.2 h] at hfault
        cases hfault
      rw [List.filterMap_cons_some hfault, List.filter_cons_of_pos (by simpa using hplace),
        List.map_cons, List.map_cons, message_of_edgeFault hfault, ih]

/-- The errors of a report. -/
theorem filter_isError_messages (g : Graph) :
    (g.report.map Finding.message).filter isError =
      (if g.ids.Nodup then [] else ["ERR: Duplicate node IDs detected."]) ++
        (g.edges.filter fun e => ¬ g.InPlace e).map g.edgeError := by
  have hfault : isError ∘ Finding.message = fun f => f.severity == .fault :=
    funext fun f => Finding.isError_message
  rw [List.filter_map, hfault, filter_report_fault, List.map_append, map_message_edgeFaults]
  split <;> rfl

theorem isSound_iff_messages :
    g.isSound = true ↔ ∀ m ∈ g.report.map Finding.message, isError m = false := by
  simp only [isSound_iff_filter, List.filter_eq_nil_iff, List.forall_mem_map,
    Finding.isError_message, Bool.not_eq_true]

theorem isSound_iff_inPlace : g.isSound = true ↔ g.ids.Nodup ∧ ∀ e ∈ g.edges, g.InPlace e := by
  simp only [isSound_iff, ← edgeFault_eq_none_iff, edgeFault_eq_none_iff_inPlace]

/-! ### Cycles -/

/-- One message of a report tells of cycles. -/
theorem filter_cycle_messages (g : Graph) :
    (g.report.map Finding.message).filter (fun m =>
      m = Finding.acyclic.message ∨ m = Finding.cyclic.message) = [g.cycleFinding.message] := by
  have htells : (fun m => decide (m = Finding.acyclic.message ∨ m = Finding.cyclic.message)) ∘
      Finding.message = Finding.tellsOfCycles := by
    funext f
    simp only [Function.comp_apply, Finding.message_eq_acyclic_iff,
      Finding.message_eq_cyclic_iff, Finding.tellsOfCycles]
  rw [List.filter_map, htells, filter_report_cycles]
  rfl

theorem arrow_digraph_iff {s t : String} : g.digraph.Arrow s t ↔
    ∃ e ∈ g.edges, e.source = s ∧ e.target = t ∧ s ∈ g.ids ∧ t ∈ g.ids := by
  rw [digraph, arrow_restrict_iff, mem_distinctIds, mem_distinctIds]
  constructor
  · rintro ⟨⟨e, he, hs, ht⟩, hids⟩
    exact ⟨e, he, hs, ht, hids⟩
  · rintro ⟨e, he, hs, ht, hids⟩
    exact ⟨⟨e, he, hs, ht⟩, hids⟩

/-- **The verdict of a report is exact.**  A graph is sound exactly if no message of its report is
an error, and exactly if its nodes have names of their own, both ends of each edge are nodes, and no
edge leads to a field or constant.  The errors are one for repeated names, and one for each edge
that is out of place: an end of it is no node, or the last node of the target's name is a field or
constant.  A report says that a graph is acyclic exactly if no directed cycle runs along the edges
between its nodes, all edges counted, and it has one message of the two about cycles. -/
theorem report_exact (g : Graph) :
    let messages := g.report.map Finding.message
    (g.isSound = true ↔ ∀ m ∈ messages, ¬ "ERR:".toList <+: m.toList) ∧
    (g.isSound = true ↔ g.ids.Nodup ∧ (∀ e ∈ g.edges, e.source ∈ g.ids ∧ e.target ∈ g.ids) ∧
      ∀ e ∈ g.edges, ∀ n ∈ g.nodes, n.id = e.target → n.kind ≠ .field ∧ n.kind ≠ .const) ∧
    (messages.filter isError =
      (if g.ids.Nodup then [] else ["ERR: Duplicate node IDs detected."]) ++
        (g.edges.filter fun e => ¬ g.InPlace e).map g.edgeError) ∧
    ("OK: Graph is acyclic." ∈ messages ↔
      ∀ id, ¬ TransGen (fun s t => ∃ e ∈ g.edges, e.source = s ∧ e.target = t ∧
        s ∈ g.ids ∧ t ∈ g.ids) id id) ∧
    ((messages.filter fun m => m = "OK: Graph is acyclic." ∨
      m = "WARN: Cycle detected in the graph (nodes on it evaluate to None).").length = 1) := by
  intro messages
  refine ⟨?_, ?_, filter_isError_messages g, ?_, ?_⟩
  · simp only [isSound_iff_messages, isError, List.isPrefixOf_iff_prefix, ← Bool.not_eq_true]
    rfl
  · rw [isSound_iff_inPlace]
    refine and_congr_right fun hids => ⟨fun hplace => ?_, fun ⟨hends, hkinds⟩ e he => ?_⟩
    · refine ⟨fun e he => ⟨(hplace e he).1, (hplace e he).2.1⟩, fun e he n hn hid => ?_⟩
      exact (hplace e he).2.2 n (hid ▸ node?_of_mem hids hn)
    · obtain ⟨hsource, htarget⟩ := hends e he
      exact ⟨hsource, htarget, fun n hn => hkinds e he n (mem_nodes_of_node? hn) (node?_id hn)⟩
  · have harrow : g.digraph.Arrow = fun s t => ∃ e ∈ g.edges, e.source = s ∧ e.target = t ∧
        s ∈ g.ids ∧ t ∈ g.ids := funext fun s => funext fun t => propext arrow_digraph_iff
    rw [← harrow]
    exact mem_messages_acyclic_iff
  · exact congrArg List.length (filter_cycle_messages g)

end Graph

end NodeFlow
