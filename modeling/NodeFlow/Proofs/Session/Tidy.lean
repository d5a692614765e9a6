import NodeFlow.Proofs.Graph.Connection
import NodeFlow.Proofs.Session.Ids

/-!
# Sessions keep graphs tidy

In a session that starts from nothing, whatever it is called with, nodes keep names of their own and
edges lead from nodes to other ones that take input; so the graph never has a fault.  An edge is
drawn exactly if it may be, and a call that is refused leaves the graph as it was
(`session_keeps_tidy`).
-/

namespace NodeFlow

/-- Nodes have names of their own, and each edge leads from a node to another one that takes
input. -/
structure Graph.Tidy (g : Graph) : Prop where
  distinct : g.ids.Nodup
  source : ∀ e ∈ g.edges, e.source ∈ g.ids
  target : ∀ e ∈ g.edges, ∃ n ∈ g.nodes, n.id = e.target ∧ n.takesInput = true
  ends : ∀ e ∈ g.edges, e.source ≠ e.target

namespace Graph

variable {g g' : Graph} {n : Node} {e : Edge}

theorem tidy_empty : Graph.empty.Tidy := ⟨List.nodup_nil, nofun, nofun, nofun⟩

theorem Tidy.isSound (h : g.Tidy) : g.isSound = true := by
  refine isSound_iff.2 ⟨h.distinct, fun e he => ⟨h.source e he, ?_⟩⟩
  obtain ⟨n, hn, hid, hinput⟩ := h.target e he
  exact ⟨n, hid ▸ node?_of_mem h.distinct hn, hinput⟩

theorem Tidy.addNode (h : g.Tidy)
    (hids : (Graph.ids { g with nodes := g.nodes ++ [n] }).Nodup) :
    Graph.Tidy { g with nodes := g.nodes ++ [n] } where
  distinct := hids
  source e he := by
    rw [ids_append]
    exact List.mem_append_left _ (h.source e he)
  target e he := by
    obtain ⟨m, hm, hends⟩ := h.target e he
    exact ⟨m, List.mem_append_left _ hm, hends⟩
  ends := h.ends

theorem Tidy.addEdge (h : g.Tidy) (he : g.mayConnect e = true) :
    Graph.Tidy { g with edges := g.edges ++ [e] } := by
  obtain ⟨source, target, hsource, htarget, hends, hinput, -⟩ := mayConnect_iff.1 he
  refine ⟨h.distinct, ?_, ?_, ?_⟩
  · exact List.forall_mem_append.2
      ⟨h.source, List.forall_mem_singleton.2 (mem_ids_of_node? hsource)⟩
  · exact List.forall_mem_append.2
      ⟨h.target, List.forall_mem_singleton.2 ⟨target, mem_nodes_of_node? htarget,
        node?_id htarget, hinput⟩⟩
  · exact List.forall_mem_append.2 ⟨h.ends, List.forall_mem_singleton.2 hends⟩

theorem Tidy.removeNode (h : g.Tidy) {id : String}
    (happly : (Action.removeNode id).apply g = .ok g') : g'.Tidy := by
  obtain rfl := Except.ok.inj happly
  have hedges : ∀ e ∈ g.edges.filter (fun e => e.source != id && e.target != id),
      e ∈ g.edges ∧ e.source ≠ id ∧ e.target ≠ id := by
    intro e he
    obtain ⟨hmem, hends⟩ := List.mem_filter.1 he
    exact ⟨hmem, by simpa using hends⟩
  refine ⟨h.distinct.sublist (List.filter_sublist.map _), fun e he => ?_, fun e he => ?_,
    fun e he => h.ends e (hedges e he).1⟩
  · obtain ⟨hmem, hsource, -⟩ := hedges e he
    obtain ⟨n, hn, hid⟩ := List.mem_map.1 (h.source e hmem)
    exact List.mem_map.2 ⟨n, List.mem_filter.2 ⟨hn, by simpa [hid] using hsource⟩, hid⟩
  · obtain ⟨hmem, -, htarget⟩ := hedges e he
    obtain ⟨n, hn, hid, hinput⟩ := h.target e hmem
    exact ⟨n, List.mem_filter.2 ⟨hn, by simpa [hid] using htarget⟩, hid, hinput⟩

theorem Tidy.removeEdge (h : g.Tidy) {id : String}
    (happly : (Action.removeEdge id).apply g = .ok g') : g'.Tidy := by
  obtain rfl := Except.ok.inj happly
  have hsubset : ∀ e ∈ g.edges.filter (·.id != some id), e ∈ g.edges :=
    fun e he => (List.mem_filter.1 he).1
  exact ⟨h.distinct, fun e he => h.source e (hsubset e he), fun e he => h.target e (hsubset e he),
    fun e he => h.ends e (hsubset e he)⟩

theorem Tidy.editConst (h : g.Tidy) {id : String} {raw : Value} {dtype : Option Dtype}
    (happly : (Action.editConst id raw dtype).apply g = .ok g') : g'.Tidy := by
  have hids := ids_editConst happly
  obtain ⟨⟨hedges, -⟩, hnodes⟩ := editConst_eq_ok_iff.1 happly
  refine ⟨hids ▸ h.distinct, fun e he => hids ▸ h.source e (hedges ▸ he), fun e he => ?_,
    fun e he => h.ends e (hedges ▸ he)⟩
  obtain ⟨n, hn, hid, hinput⟩ := h.target e (hedges ▸ he)
  obtain ⟨n', hn', hedit⟩ := Outcome.exists_of_mapM_eq_ok (Outcome.mapM_eq_ok_iff.2 hnodes) n hn
  obtain ⟨hid', hkind⟩ := editConst_keeps hedit
  refine ⟨n', hn', hid'.trans hid, Node.takesInput_iff.2 ?_⟩
  rw [hkind]
  exact Node.takesInput_iff.1 hinput

end Graph

namespace Session

variable {s s' : Session} {reply : Reply}

/-- Every step that is carried out keeps the graph tidy. -/
theorem Change.tidy (h : Change s reply s') (htidy : s.graph.Tidy)
    (hids : s'.graph.ids.Nodup) : s'.graph.Tidy := by
  cases h with
  | added => exact htidy.addNode hids
  | connected he => exact htidy.addEdge he
  | @applied a graph ha hgraph =>
    cases a with
    | addNode | addEdge => cases ha
    | removeNode id => exact htidy.removeNode hgraph
    | removeEdge id => exact htidy.removeEdge hgraph
    | editConst id raw dtype => exact htidy.editConst hgraph

theorem Refusal.graph_eq (h : Refusal s s') : s'.graph = s.graph := by
  cases h <;> rfl

theorem graph_of_error {c : Call} {error : SessionError} (h : (s.call c).1 = .error error) :
    (s.call c).2.graph = s.graph := by
  have houtcome := run_outcome s c
  rw [Outcome, h] at houtcome
  exact houtcome.graph_eq

theorem tidy_call (htidy : s.graph.Tidy) (c : Call) (hids : (s.call c).2.graph.ids.Nodup) :
    (s.call c).2.graph.Tidy := by
  have houtcome := run_outcome s c
  rw [Outcome] at houtcome
  split at houtcome
  · exact houtcome.tidy htidy hids
  · rw [houtcome.graph_eq]
    exact htidy

theorem unnumbered_nil : Unnumbered [] := fun _ _ _ _ => List.not_mem_nil

theorem after_tidy (settings : Settings) (calls : List Call) :
    ((start .empty settings).after calls).graph.Tidy := by
  refine (after_induction (P := fun s => s.graph.Tidy ∧ ∃ count, Drawn [] s count)
    ⟨Graph.tidy_empty, 0, drawn_start .empty settings⟩ (fun s c h => ?_) calls).1
  obtain ⟨htidy, count, h⟩ := h
  exact ⟨tidy_call htidy c (h.nodup_call unnumbered_nil htidy.distinct c), h.call c⟩

/-- **Sessions keep graphs tidy.**  After any calls of a session that starts from nothing, nodes
have names of their own, each edge leads from a node to another one that is no field or constant,
and the graph has no fault.  Of the next call the following is known: if it is refused, the graph
stays as it is, also where it breaks off in the edit itself; if it is to draw an edge between places
that are given as texts, then exactly if the edge may be drawn it is given and added, and else the
connection is refused.  Where a text that holds half of a surrogate pair is refused, it names no
place, so that there is no edge to look at. -/
theorem session_keeps_tidy (settings : Settings) (calls : List Call) :
    let s := (start .empty settings).after calls
    s.graph.ids.Nodup ∧
    (∀ e ∈ s.graph.edges, e.source ∈ s.graph.ids ∧ e.source ≠ e.target ∧
      ∃ n ∈ s.graph.nodes, n.id = e.target ∧ n.kind ≠ .field ∧ n.kind ≠ .const) ∧
    s.graph.isSound = true ∧
    (∀ c error, (s.call c).1 = .error error → (s.call c).2.graph = s.graph) ∧
    ∀ (source target : String) (targetHandle sourceHandle : Option String),
      let e := edgeOf source target targetHandle sourceHandle
      let outcome := s.call (connectCall source target targetHandle sourceHandle)
      if readable source target targetHandle sourceHandle then
        outcome = if s.graph.mayConnect e then
            (.ok (.edge e), { s with graph := { s.graph with edges := s.graph.edges ++ [e] } })
          else (.error (refusal s.graph e), s)
      else RefusesHalves → ∃ issues, outcome = (.error (.issues issues), s) := by
  intro s
  have htidy : s.graph.Tidy := after_tidy settings calls
  refine ⟨htidy.distinct, fun e he => ?_, htidy.isSound, fun c error => graph_of_error,
    fun source target targetHandle sourceHandle => call_connect s⟩
  obtain ⟨n, hn, hid, hinput⟩ := htidy.target e he
  exact ⟨htidy.source e he, htidy.ends e he, n, hn, hid, Node.takesInput_iff.1 hinput⟩

end Session

end NodeFlow
