import NodeFlow.Proofs.Graph.Report
import NodeFlow.Proofs.Session.Change
import NodeFlow.Proofs.Text.Numbered

/-!
# Names that a session draws

The names of the nodes of a session are those of the graph that it was opened on and those that it
drew, and a drawn name differs from all that were drawn before.  So names stay apart if the graph
has none of the form of drawn names (`drawn_ids_fresh`).  If it has, a session may draw a name that
is taken (`drawn_id_taken`).
-/

namespace NodeFlow

/-! ### Names in a graph after an action -/

variable {g g' : Graph} {n n' : Node} {a : Action} {id : String} {raw : Value}
  {dtype : Option Dtype}

theorem ids_append (g : Graph) (n : Node) :
    Graph.ids { g with nodes := g.nodes ++ [n] } = g.ids ++ [n.id] := by
  rw [Graph.ids, List.map_append]
  rfl

/-- A constant that was edited keeps its name and its kind; other nodes stay as they are. -/
theorem edited_keeps (h : Action.edited raw dtype n = .ok n') :
    n'.id = n.id ∧ n'.kind = n.kind := by
  rw [Action.edited] at h
  split at h
  · next hcontent =>
    obtain ⟨v, -, h⟩ := Outcome.bind_eq_ok_iff.1 h
    obtain rfl := Except.ok.inj h
    exact ⟨rfl, by rw [Node.kind, Node.kind, hcontent]⟩
  · obtain rfl := Except.ok.inj h
    exact ⟨rfl, rfl⟩

/-- An edit of constants goes from node to node, and leaves all else. -/
theorem editConst_eq_ok_iff : (Action.editConst id raw dtype).apply g = .ok g' ↔
    (g'.edges = g.edges ∧ g'.metadata = g.metadata) ∧
      List.Forall₂ (fun n n' => (if n.id == id then Action.edited raw dtype n else .ok n) = .ok n')
        g.nodes g'.nodes := by
  rw [Action.apply, Outcome.bind_eq_ok_iff]
  simp only [Outcome.mapM_eq_ok_iff]
  constructor
  · rintro ⟨nodes, hnodes, h⟩
    obtain rfl := Except.ok.inj h
    exact ⟨⟨rfl, rfl⟩, hnodes⟩
  · rintro ⟨⟨hedges, hmetadata⟩, hnodes⟩
    refine ⟨g'.nodes, hnodes, ?_⟩
    rw [← hedges, ← hmetadata]
    rfl

theorem editConst_keeps (h : (if n.id == id then Action.edited raw dtype n else .ok n) = .ok n') :
    n'.id = n.id ∧ n'.kind = n.kind := by
  split at h
  · exact edited_keeps h
  · obtain rfl := Except.ok.inj h
    exact ⟨rfl, rfl⟩

theorem ids_editConst (h : (Action.editConst id raw dtype).apply g = .ok g') : g'.ids = g.ids := by
  obtain ⟨-, hnodes⟩ := editConst_eq_ok_iff.1 h
  rw [Graph.ids, Graph.ids]
  generalize g.nodes = nodes, g'.nodes = nodes' at hnodes ⊢
  induction hnodes with
  | nil => rfl
  | cons hfirst _ ih => rw [List.map_cons, List.map_cons, (editConst_keeps hfirst).1, ih]

namespace Session

theorem ids_sublist (ha : IsLesser a) (h : a.apply g = .ok g') : g'.ids.Sublist g.ids := by
  cases a with
  | addNode | addEdge => cases ha
  | removeNode id =>
    obtain rfl := Except.ok.inj h
    exact List.filter_sublist.map _
  | removeEdge id =>
    obtain rfl := Except.ok.inj h
    exact .refl _
  | editConst id raw dtype => rw [ids_editConst h]

/-! ### Drawn names -/

/-- The name of a number for a word. -/
def numberedId (word : String) (number : Nat) : String := word ++ "_" ++ toString number

/-- So many names were drawn, and the nodes have names that were given or drawn. -/
structure Drawn (given : List String) (s : Session) (count : Nat) : Prop where
  next : s.ids.next = (count + 1 : Nat)
  origin : ∀ id ∈ s.graph.ids,
    id ∈ given ∨ ∃ word number, 0 < number ∧ number ≤ count ∧ id = numberedId word number

variable {s s' : Session} {reply : Reply} {given : List String} {count : Nat} {word : String}

theorem drawn_start (g : Graph) (settings : Settings) : Drawn g.ids (start g settings) 0 :=
  ⟨rfl, fun _ => .inl⟩

theorem drawnId_eq (hword : word ∈ nodeWords) (hnext : s.ids.next = (count + 1 : Nat)) :
    s.drawnId word = numberedId word (count + 1) := by
  have hne : word.isEmpty = false := by
    revert word
    decide
  show (if word.isEmpty then s.ids.word else word) ++ "_" ++ toString s.ids.next = _
  rw [hne, hnext]
  rfl

/-- A drawn name is none of those that were drawn before. -/
theorem Drawn.mem_given (h : Drawn given s count) (hword : word ∈ nodeWords)
    (hmem : s.drawnId word ∈ s.graph.ids) : s.drawnId word ∈ given := by
  rcases h.origin _ hmem with hgiven | ⟨word', number, -, hle, heq⟩
  · exact hgiven
  · rw [drawnId_eq hword h.next] at heq
    have := (Text.eq_of_numbered heq).2
    omega

theorem Drawn.mono (h : Drawn given s count) (hids : s'.graph.ids ⊆ s.graph.ids)
    (hnext : s'.ids = s.ids) : Drawn given s' count :=
  ⟨hnext ▸ h.next, fun id hid => h.origin id (hids hid)⟩

theorem Drawn.draw (h : Drawn given s count) (hnext : s'.ids.next = s.ids.next + 1)
    (hids : ∀ id ∈ s'.graph.ids, id ∈ s.graph.ids ∨ ∃ word, id = numberedId word (count + 1)) :
    Drawn given s' (count + 1) := by
  refine ⟨by rw [hnext, h.next]; rfl, fun id hid => ?_⟩
  rcases hids id hid with hold | ⟨word, rfl⟩
  · refine (h.origin id hold).imp_right ?_
    rintro ⟨word, number, hpos, hle, heq⟩
    exact ⟨word, number, hpos, Nat.le_succ_of_le hle, heq⟩
  · exact .inr ⟨word, count + 1, Nat.succ_pos count, le_rfl, rfl⟩

theorem Drawn.change (h : Drawn given s count) (hchange : Change s reply s') :
    ∃ count, Drawn given s' count := by
  cases hchange with
  | @added word hword content =>
    refine ⟨count + 1, h.draw rfl fun id hid => ?_⟩
    rw [ids_append, drawnId_eq hword h.next] at hid
    rcases List.mem_append.1 hid with hid | hid
    · exact .inl hid
    · exact .inr ⟨word, List.mem_singleton.1 hid⟩
  | connected => exact ⟨count, h.mono (List.Subset.refl _) rfl⟩
  | applied ha hgraph => exact ⟨count, h.mono (ids_sublist ha hgraph).subset rfl⟩

theorem Drawn.refusal (h : Drawn given s count) (hrefusal : Refusal s s') :
    ∃ count, Drawn given s' count := by
  cases hrefusal with
  | same => exact ⟨count, h⟩
  | drawn => exact ⟨count + 1, h.draw rfl fun id hid => .inl hid⟩

theorem Drawn.call (h : Drawn given s count) (c : Call) :
    ∃ count, Drawn given (s.call c).2 count := by
  have houtcome := run_outcome s c
  rw [Outcome] at houtcome
  split at houtcome
  · exact h.change houtcome
  · exact h.refusal houtcome

theorem exists_drawn (g : Graph) (settings : Settings) (calls : List Call) :
    ∃ count, Drawn g.ids ((start g settings).after calls) count := by
  refine after_induction (P := fun s => ∃ count, Drawn g.ids s count)
    ⟨0, drawn_start g settings⟩ (fun s c ⟨count, h⟩ => ?_) calls
  exact h.call c

/-! ### Names that stay apart -/

theorem nodup_of_change (h : Change s reply s') (hids : s.graph.ids.Nodup)
    (hfresh : ∀ word ∈ nodeWords, s.drawnId word ∉ s.graph.ids) : s'.graph.ids.Nodup := by
  cases h with
  | @added word hword content =>
    rw [ids_append]
    refine List.nodup_append.2 ⟨hids, List.nodup_singleton _, ?_⟩
    rintro id hid other hother rfl
    obtain rfl : id = s.drawnId word := List.mem_singleton.1 hother
    exact hfresh word hword hid
  | connected => exact hids
  | applied ha hgraph => exact hids.sublist (ids_sublist ha hgraph)

/-- No name is of the form of drawn ones. -/
def Unnumbered (ids : List String) : Prop :=
  ∀ word ∈ nodeWords, ∀ number, 0 < number → numberedId word number ∉ ids

theorem Drawn.fresh (h : Drawn given s count) (hgiven : Unnumbered given)
    (hword : word ∈ nodeWords) : s.drawnId word ∉ s.graph.ids := by
  intro hmem
  have htaken := h.mem_given hword hmem
  rw [drawnId_eq hword h.next] at htaken
  exact hgiven word hword _ (Nat.succ_pos count) htaken

theorem Drawn.nodup_call (h : Drawn given s count) (hgiven : Unnumbered given)
    (hids : s.graph.ids.Nodup) (c : Call) : (s.call c).2.graph.ids.Nodup := by
  have houtcome := run_outcome s c
  rw [Outcome] at houtcome
  split at houtcome
  · exact nodup_of_change houtcome hids fun word hword => h.fresh hgiven hword
  · generalize (s.call c).2 = s' at houtcome
    cases houtcome with
    | same | drawn => exact hids

/-- **Drawn names are fresh.**  A session that is opened on a graph without faults, in which no node
has a name of the form of drawn ones, gives each new node a name that no node has, so names stay
apart. -/
theorem drawn_ids_fresh {g : Graph} (hg : g.isSound = true) (hids : Unnumbered g.ids)
    (settings : Settings) (calls : List Call) :
    let s := (start g settings).after calls
    s.graph.ids.Nodup ∧ ∀ c id, (s.call c).1 = .ok (.id id) →
      id ∉ s.graph.ids ∧ (s.call c).2.graph.ids = s.graph.ids ++ [id] := by
  intro s
  obtain ⟨count, hdrawn⟩ := exists_drawn g settings calls
  refine ⟨?_, fun c id hid => ?_⟩
  · refine (after_induction (P := fun s => s.graph.ids.Nodup ∧ ∃ count, Drawn g.ids s count)
      ⟨(Graph.isSound_iff.1 hg).1, 0, drawn_start g settings⟩ (fun s c h => ?_) calls).1
    obtain ⟨hnodup, count, h⟩ := h
    exact ⟨h.nodup_call hids hnodup c, h.call c⟩
  · have houtcome := run_outcome s c
    rw [Outcome, hid] at houtcome
    generalize (s.call c).2 = s' at houtcome
    cases houtcome with
    | added hword content => exact ⟨hdrawn.fresh hids hword, ids_append _ _⟩

/-- A graph whose names are not of the form of drawn ones. -/
def priced : Graph where
  nodes := [⟨"price", none, .field "price" .number none⟩, ⟨"out", none, .output "price" .null⟩]
  edges := [⟨none, "price", none, "out", some "in"⟩]
  metadata := []

theorem drawn_ids_fresh_priced : priced.isSound = true ∧ Unnumbered priced.ids ∧
    ((start priced default).after [⟨.addConst, [.int 2]⟩, ⟨.addOutput, []⟩]).graph.ids.Nodup := by
  have hids : Unnumbered priced.ids := by
    intro word _ number _ hmem
    have hnone : ∀ id ∈ priced.ids, '_' ∉ id.toList := by decide
    exact hnone _ hmem (by simp [numberedId])
  exact ⟨by decide, hids, (drawn_ids_fresh (by decide) hids _ _).1⟩

/-- A graph with a name of the form of drawn ones. -/
def reopened : Graph where
  nodes := [⟨"const_1", none, .const (.int 1) .number none⟩]
  edges := []
  metadata := []

theorem drawn_id_taken :
    let c : Call := ⟨.addConst, [.int 2]⟩
    reopened.isSound = true ∧ ((start reopened default).call c).1 = .ok (.id "const_1") ∧
      ((start reopened default).call c).2.graph.ids = ["const_1", "const_1"] :=
  ⟨by decide, rfl, rfl⟩

end Session

end NodeFlow
