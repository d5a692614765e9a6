import NodeFlow.Code.Layout
import NodeFlow.Proofs.Code.Consumers
import NodeFlow.Proofs.Code.Sharing
import NodeFlow.Proofs.Graph.Roots

/-!
# The places of a program

In a graph without loops and cycles, a program is a sequence of places that each give a target the
value of a node (`Program.places`, `IsProgram.lines_eq`).  A place copies a node if the own
expression of the node is written out there.  One place at most copies a node that applies an
operator, if nothing is read from the outputs that it feeds (`IsProgram.places_pairwise`): a node
without a temporary is shown by one output at most.
-/

open Relation

namespace NodeFlow.Code

variable {g : Graph} {bound : Bound} {id other name text : String} {handle : Option String}
  {n m : Node} {e : Edge} {p : Program}

/-! ### Expressions that do not depend on a node -/

/-- All nodes with a temporary that a node depends on are bound. -/
def Fed (g : Graph) (bound : Bound) (id : String) : Prop :=
  ∀ other, g.Depends id other → needsTemporary g g.governed other = true →
    ∃ name, bound.lookup other = some name

/-- No loops and no cycles. -/
structure Straight (g : Graph) : Prop where
  loops : ∀ id, g.isLoop id = false
  acyclic : g.Acyclic

/-- A node, or an output that it feeds. -/
def Shows (g : Graph) (id other : String) : Prop :=
  other = id ∨ ∃ n e, g.node? other = some n ∧ n.kind = .output ∧ g.valueEdge? other = some e ∧
    e.source = id

/-- Nothing is read from the outputs that a node feeds. -/
def Unread (g : Graph) (id : String) : Prop :=
  ∀ other reader, Shows g id other → other ≠ id → ¬ g.Depends reader other

theorem render_cons_of_edges (hg : g.Acyclic) (hne : other ≠ id)
    (h : ∀ n, g.node? other = some n → ∀ e ∈ (g.origin n).edges,
      render g ((id, text) :: bound) (e.source, e.sourceHandle) =
        render g bound (e.source, e.sourceHandle)) :
    render g ((id, text) :: bound) (other, handle) = render g bound (other, handle) := by
  have hlookup' : ((id, text) :: bound).lookup other = bound.lookup other := lookup_cons_of_ne hne
  cases hlookup : bound.lookup other with
  | some name => rw [render_of_bound hg hlookup, render_of_bound hg (hlookup'.trans hlookup)]
  | none =>
    rw [hlookup] at hlookup'
    cases hn : g.node? other with
    | none => rw [render_of_absent hg hlookup hn, render_of_absent hg hlookup' hn]
    | some n =>
      rw [render_of_node hg hlookup hn, render_of_node hg hlookup' hn, composed_congr (h n hn)]

/-- A node without a name is a source of the outputs that it feeds only: to be read by an operator,
it would need a temporary. -/
theorem shows_of_depends (hg : Straight g) (hid : Applies g id) (hb : bound.lookup id = none)
    (hn : g.node? other = some n) (hfed : Fed g bound other) (he : e ∈ (g.origin n).edges)
    (hsource : e.source = id) : Shows g id other := by
  have hin : e ∈ g.dataIn other := Graph.node?_id hn ▸ Graph.mem_dataIn_of_origin he
  by_cases happlies : Applies g other
  · have hkind : n.kind = .operator := happlies.kind_eq hn
    have hconsumer := mem_consumers_of_mem_dataIn hg.loops hn (takesInput_of_kind (.inl hkind)) hin
    have hneeds : needsTemporary g g.governed id = true :=
      needsTemporary_of_consumers hg.loops hid (.inr ⟨n, hsource ▸ hconsumer, hkind⟩)
    obtain ⟨name, hname⟩ := hfed id (hsource ▸ Graph.depends_source hn he) hneeds
    rw [hb] at hname
    cases hname
  · by_cases hkind : n.kind = .output
    · rw [Graph.origin_of_output hkind, Graph.node?_id hn] at he
      exact .inr ⟨n, e, hn, hkind, Option.mem_toList.1 he, hsource⟩
    · rw [origin_edges_eq_nil hn happlies hkind] at he
      cases he

/-- What does not show a node without a name does not depend on what that node is written as. -/
theorem render_cons_of_not_shows (hg : Straight g) (hid : Applies g id) (hunread : Unread g id)
    (hb : bound.lookup id = none) (hnot : ¬ Shows g id other)
    (hfed : ∀ x, ReflTransGen g.Depends other x → Fed g bound x) :
    render g ((id, text) :: bound) (other, handle) = render g bound (other, handle) := by
  obtain ⟨t, ht⟩ := Graph.exists_unfolds (hg.acyclic.not_circular other)
  induction ht generalizing handle with
  | absent hn =>
    refine render_cons_of_edges hg.acyclic (fun heq => hnot (.inl heq)) fun n hn' => ?_
    rw [hn] at hn'
    cases hn'
  | @node other n hn children _ ih =>
    refine render_cons_of_edges hg.acyclic (fun heq => hnot (.inl heq)) fun n' hn' e he => ?_
    obtain rfl := Option.some.inj (hn.symm.trans hn')
    have hdepends : g.Depends other e.source := Graph.depends_source hn he
    refine ih e he (fun hshows => ?_) fun x hx => hfed x (.head hdepends hx)
    by_cases heq : e.source = id
    · exact hnot (shows_of_depends hg hid hb hn (hfed other .refl) he heq)
    · exact hunread e.source other hshows heq hdepends

/-- What shows a node is written as that node is. -/
theorem Shows.exists_handle (hg : g.Acyclic) (h : Shows g id other) : ∃ handle, ∀ bound : Bound,
    (other ≠ id → bound.lookup other = none) →
      render g bound (other, none) = render g bound (id, handle) := by
  by_cases heq : other = id
  · exact ⟨none, fun bound _ => by rw [heq]⟩
  · obtain ⟨n, e, hn, hkind, hvalue, rfl⟩ := h.resolve_left heq
    refine ⟨e.sourceHandle, fun bound hbound => ?_⟩
    rw [render_of_node hg (hbound heq) hn, Graph.origin_of_output hkind,
      Graph.node?_id hn, hvalue, composed_edge]
    rfl

theorem render_of_unbound (hg : g.Acyclic) (hn : g.node? id = some n) (hloop : n.isLoop = false)
    (hb : bound.lookup id = none) : render g bound (id, handle) = assignment g bound id := by
  rw [render_of_node hg hb hn, assignment_of_node hg hn, composed, composed]
  exact congrArg _ (funext (Graph.written_eq_written hloop handle none))

/-! ### The places of a program -/

/-- A place where a target is given the value of a node, with the expression that stands there. -/
structure Place where
  target : String
  node : String
  bound : Bound
  text : String

namespace Place

variable (g : Graph) (id : String) (s : Place)

/-- The expression for the node of a place, over the names there. -/
def expression : Spelling := render g s.bound (s.node, none)

/-- The expression with a text in the place of what a node is written as. -/
def expressionWith (text : String) : Spelling := render g ((id, text) :: s.bound) (s.node, none)

/-- The own expression of a node is written out: the node has no name, and it matters what it is
written as. -/
def Copies : Prop := s.bound.lookup id = none ∧ ∃ text, s.expressionWith g id text ≠ s.expression g

end Place

/-- The place of an assignment. -/
def Assignment.place (a : Assignment) : Place := ⟨a.name, a.node, a.bound, a.expression⟩

/-- The place of a free root's result. -/
def RootCode.place? (free : Bound) : RootCode → Option Place
  | direct root text => some ⟨resultTarget root, root.node, free, text⟩
  | looped _ => none

/-- The places of a program without loops: the temporaries and the results. -/
def Program.places (p : Program) : List Place :=
  p.free.map Assignment.place ++ p.results.filterMap (RootCode.place? p.freeBound)

variable {s : Place} {a : Assignment} {before after : List Assignment}

theorem lookup_entries_eq_none {as : List Assignment} (h : id ∉ as.map (·.node)) :
    (as.map Assignment.entry).reverse.lookup id = none := by
  refine List.lookup_eq_none_iff.2 fun e he => bne_iff_ne.2 ?_
  rintro rfl
  obtain ⟨a, ha, rfl⟩ := List.mem_map.1 (List.mem_reverse.1 he)
  exact h (List.mem_map_of_mem ha)

theorem exists_lookup_entries {as : List Assignment} (h : id ∈ as.map (·.node)) :
    ∃ name, (as.map Assignment.entry).reverse.lookup id = some name := by
  obtain ⟨a, ha, rfl⟩ := List.mem_map.1 h
  refine Option.isSome_iff_exists.1 (List.lookup_isSome_iff.2 ⟨a.entry, ?_, beq_self_eq_true _⟩)
  exact List.mem_reverse.2 (List.mem_map_of_mem ha)

theorem mem_freeNodes_of_needsTemporary (hloops : ∀ id, g.isLoop id = false) (hroots : g.roots ≠ [])
    (h : needsTemporary g g.governed id = true) : id ∈ freeNodes g := by
  obtain ⟨n, hn, -⟩ := exists_node_of_needsTemporary h
  exact mem_freeNodes.2 ⟨hroots, Graph.mem_ids_of_node? hn, loopOf?_eq_none hloops id, h⟩

theorem freeNodes_pairwise (hloops : ∀ id, g.isLoop id = false)
    (hcycles : ∀ v, ¬ TransGen g.digraph.Arrow v v) :
    (freeNodes g).Pairwise fun v u => ¬ TransGen g.digraph.Arrow u v := by
  have hall : g.ids.filter (fun id => (g.loopOf? id).isNone) = g.ids :=
    List.filter_eq_self.2 fun id _ => by rw [loopOf?_eq_none hloops]; rfl
  rw [freeNodes, hall]
  split
  · exact .nil
  · exact (Graph.order_ids_pairwise hcycles).filter _

theorem IsProgram.bound_eq (h : IsProgram g p) (hfree : p.free = before ++ a :: after) :
    a.bound = (before.map Assignment.entry).reverse := by
  have hchain := h.chain
  rw [hfree] at hchain
  rw [hchain.bound_eq, List.append_nil]

theorem IsProgram.roots_ne_nil (h : IsProgram g p) (ha : a ∈ p.free) : g.roots ≠ [] :=
  (mem_freeNodes.1 (h.nodes ▸ List.mem_map_of_mem ha)).1

/-- A temporary is assigned after those of the nodes that its node depends on in any way. -/
theorem IsProgram.fed_free (h : IsProgram g p) (hloops : ∀ id, g.isLoop id = false)
    (hcycles : ∀ v, ¬ TransGen g.digraph.Arrow v v) (hfree : p.free = before ++ a :: after)
    (hreach : ReflTransGen g.Depends a.node other) : Fed g a.bound other := by
  intro last hdepends hneeds
  have ha : a ∈ p.free := by simp [hfree]
  have hmem := mem_freeNodes_of_needsTemporary hloops (h.roots_ne_nil ha) hneeds
  have hpath : TransGen g.digraph.Arrow last a.node :=
    Graph.transGen_arrow_of_depends (.tail' hreach hdepends) (mem_freeNodes.1 hmem).2.1
  have hpairwise := freeNodes_pairwise hloops hcycles
  rw [← h.nodes, hfree, List.map_append, List.map_cons] at hmem hpairwise
  rw [h.bound_eq hfree]
  refine exists_lookup_entries ?_
  rcases List.mem_append.1 hmem with hbefore | hrest
  · exact hbefore
  · rcases List.mem_cons.1 hrest with rfl | hafter
    · exact absurd hpath (hcycles _)
    · have hback := (List.pairwise_append.1 hpairwise).2.1
      exact absurd hpath ((List.pairwise_cons.1 hback).1 last hafter)

theorem IsProgram.exists_name (h : IsProgram g p) (hloops : ∀ id, g.isLoop id = false)
    (hroots : g.roots ≠ []) (hneeds : needsTemporary g g.governed id = true) :
    ∃ name, p.freeBound.lookup id = some name :=
  exists_lookup_entries (h.nodes ▸ mem_freeNodes_of_needsTemporary hloops hroots hneeds)

theorem IsProgram.needsTemporary_eq_false (h : IsProgram g p) (hloops : ∀ id, g.isLoop id = false)
    (hroots : g.roots ≠ []) (hb : p.freeBound.lookup id = none) :
    needsTemporary g g.governed id = false := by
  by_contra hneeds
  obtain ⟨name, hname⟩ := h.exists_name hloops hroots (Bool.not_eq_false _ ▸ hneeds)
  rw [hname] at hb
  cases hb

/-- The name of an assigned node is not known before. -/
theorem IsProgram.lookup_own (h : IsProgram g p) (hfree : p.free = before ++ a :: after) :
    a.bound.lookup a.node = none := by
  have hnodup := h.nodes_nodup
  rw [hfree, List.map_append, List.map_cons] at hnodup
  rw [h.bound_eq hfree]
  exact lookup_entries_eq_none fun hmem =>
    (List.nodup_append.1 hnodup).2.2 _ hmem _ List.mem_cons_self rfl

/-- Without loops each root gets its result directly. -/
theorem IsProgram.exists_direct (h : IsProgram g p) (hloops : ∀ id, g.isLoop id = false)
    {code : RootCode} (hcode : code ∈ p.results) : ∃ root text, code = .direct root text ∧
      root ∈ g.roots ∧ render g p.freeBound (root.node, none) = .ok text := by
  obtain ⟨before, -, hroot⟩ := h.of_mem hcode
  rw [IsRootCode, loopOf?_eq_none hloops] at hroot
  obtain ⟨text, heq, htext⟩ := hroot
  exact ⟨code.root, text, heq, h.root_mem hcode, htext⟩

/-- What a place of a program is. -/
theorem IsProgram.place_cases (h : IsProgram g p) (hloops : ∀ id, g.isLoop id = false)
    (hs : s ∈ p.places) :
    (∃ before a after, p.free = before ++ a :: after ∧ s = a.place) ∨
    ∃ root ∈ g.roots, ∃ text, s = ⟨resultTarget root, root.node, p.freeBound, text⟩ ∧
      render g p.freeBound (root.node, none) = .ok text := by
  rcases List.mem_append.1 hs with hs | hs
  · obtain ⟨a, ha, rfl⟩ := List.mem_map.1 hs
    obtain ⟨before, after, hsplit⟩ := List.append_of_mem ha
    exact .inl ⟨before, a, after, hsplit, rfl⟩
  · obtain ⟨code, hcode, hplace⟩ := List.mem_filterMap.1 hs
    obtain ⟨root, text, rfl, hroot, htext⟩ := h.exists_direct hloops hcode
    obtain rfl := Option.some.inj hplace
    exact .inr ⟨root, hroot, text, rfl, htext⟩

theorem IsProgram.bound_of_mem_places (h : IsProgram g p) (hloops : ∀ id, g.isLoop id = false)
    (hs : s ∈ p.places) : s.bound ⊆ p.free.map Assignment.entry := by
  intro e he
  rcases h.place_cases hloops hs with ⟨before, a, after, hsplit, rfl⟩ | ⟨root, -, text, rfl, -⟩
  · have he : e ∈ a.bound := he
    rw [h.bound_eq hsplit] at he
    rw [hsplit, List.map_append]
    exact List.mem_append_left _ (List.mem_reverse.1 he)
  · exact List.mem_reverse.1 he

theorem IsProgram.applies_of_mem_bound (h : IsProgram g p) (hloops : ∀ id, g.isLoop id = false)
    (hs : s ∈ p.places) (hname : (id, name) ∈ s.bound) : Applies g id := by
  obtain ⟨a, ha, heq⟩ := List.mem_map.1 (h.bound_of_mem_places hloops hs hname)
  obtain rfl : a.node = id := congrArg Prod.fst heq
  exact applies_of_needsTemporary (h.mem_free ha).2

/-- The text that stands at a place is the expression for its node. -/
theorem IsProgram.expression_eq (h : IsProgram g p) (hg : Straight g) (hs : s ∈ p.places) :
    s.expression g = .ok s.text := by
  rcases h.place_cases hg.loops hs with ⟨before, a, after, hsplit, rfl⟩ | ⟨root, -, text, rfl, htext⟩
  · have ha : a ∈ p.free := by simp [hsplit]
    obtain ⟨n, hn, hloop⟩ := exists_node_of_needsTemporary (h.mem_free ha).2
    have hunbound : a.bound.lookup a.node = none := h.lookup_own hsplit
    exact (render_of_unbound hg.acyclic hn hloop hunbound).trans (h.free.of_mem ha).1
  · exact htext

/-- The lines of a program without loops are its places. -/
theorem IsProgram.lines_eq (h : IsProgram g p) (hloops : ∀ id, g.isLoop id = false) :
    p.lines = if g.roots.isEmpty then emptyFunction "No outputs; add an Output node and connect it."
      else [functionLine, "    vars = {}", "    results = {}"] ++
        p.places.map (fun s => assignLine 1 s.target s.text) ++ ["    return results"] := by
  have hresults : p.results.flatMap RootCode.lines =
      (p.results.filterMap (RootCode.place? p.freeBound)).map
        fun s => assignLine 1 s.target s.text := by
    have hdirect : ∀ code ∈ p.results, ∃ root text, code = .direct root text := by
      intro code hcode
      obtain ⟨root, text, heq, -⟩ := h.exists_direct hloops hcode
      exact ⟨root, text, heq⟩
    generalize p.results = codes at hdirect
    induction codes with
    | nil => rfl
    | cons code rest ih =>
      obtain ⟨⟨root, text, rfl⟩, hrest⟩ := List.forall_mem_cons.1 hdirect
      rw [List.flatMap_cons, ih hrest]
      rfl
  have hempty : p.results.isEmpty = g.roots.isEmpty := by
    rw [← h.results.map_root, List.isEmpty_map]
  rw [Program.lines, hempty, hresults]
  split
  · rfl
  · simp only [Program.places, List.map_append, List.map_map, List.append_assoc]
    rfl

/-! ### Copies -/

theorem two_le_length {α : Type} {l : List α} {x y : α} (hx : x ∈ l) (hy : y ∈ l) (hne : x ≠ y) :
    2 ≤ l.length := by
  have hnodup : [x, y].Nodup := by simpa using hne
  have hsubset : [x, y] ⊆ l := by simp [hx, hy]
  exact (hnodup.subperm hsubset).length_le

/-- What two roots show has a temporary. -/
theorem needsTemporary_of_shows (hloops : ∀ id, g.isLoop id = false) (hids : g.ids.Nodup)
    (hid : Applies g id) {r r' : Root} (hr : r ∈ g.roots) (hr' : r' ∈ g.roots)
    (hne : r.node ≠ r'.node) (h : Shows g id r.node) (h' : Shows g id r'.node) :
    needsTemporary g g.governed id = true := by
  rcases Graph.roots_cases (g := g) with houtputs | hnone
  -- roots are outputs, and two of them are two consumers
  · have hconsumer : ∀ root ∈ g.roots, Shows g id root.node → ∃ n ∈ consumers g id,
        n.id = root.node := by
      intro root hroot hshows
      obtain ⟨n, hn, hnode, hkind⟩ := houtputs root hroot
      have hlookup : g.node? root.node = some n := hnode ▸ Graph.node?_of_mem hids hn
      rcases hshows with heq | ⟨-, e, -, -, hvalue, rfl⟩
      · exact absurd hkind (hid.kind_ne_output (heq ▸ hlookup))
      · refine ⟨n, mem_consumers_of_mem_dataIn hloops hlookup (takesInput_of_kind (.inr hkind)) ?_,
          hnode⟩
        exact List.mem_of_getLast? hvalue
    obtain ⟨n, hn, hnode⟩ := hconsumer r hr h
    obtain ⟨n', hn', hnode'⟩ := hconsumer r' hr' h'
    refine needsTemporary_of_consumers hloops hid (.inl (two_le_length hn hn' ?_))
    rintro rfl
    exact hne (hnode.symm.trans hnode')
  -- there are no outputs, so that a root shows nothing but itself
  · have hself : ∀ root : Root, Shows g id root.node → root.node = id := by
      rintro root (heq | ⟨n, e, hn, hkind, -⟩)
      · exact heq
      · exact absurd hkind (hnone n (Graph.mem_nodes_of_node? hn))
    exact absurd ((hself r h).trans (hself r' h').symm) hne

/-- What is copied is all of the expression, once. -/
theorem copied (hg : g.Acyclic) (hid : Applies g id) (hloop : g.isLoop id = false)
    (hshows : Shows g id s.node) (hnode : s.node ≠ id → s.bound.lookup s.node = none)
    (hb : s.bound.lookup id = none) :
    s.expression g = assignment g s.bound id ∧ ∀ text, s.expressionWith g id text = .ok text := by
  obtain ⟨n, -, -, hn, -⟩ := hid
  have hloop : n.isLoop = false := by simpa [Graph.isLoop, hn] using hloop
  obtain ⟨handle, hrender⟩ := hshows.exists_handle hg
  refine ⟨?_, fun text => ?_⟩
  · rw [Place.expression, hrender s.bound hnode, render_of_unbound hg hn hloop hb]
  · rw [Place.expressionWith, hrender _ fun hne => (lookup_cons_of_ne hne).trans (hnode hne),
      render_of_bound hg List.lookup_cons_self]

theorem Renders.congr {bound' : Bound} {key : Key} {spelling : Spelling}
    (h : Renders g bound key spelling) (hlookup : ∀ id, bound.lookup id = bound'.lookup id) :
    Renders g bound' key spelling := by
  induction h with
  | named hb => exact .named (hlookup _ ▸ hb)
  | absent hb hn => exact .absent (hlookup _ ▸ hb) hn
  | node hb hn T _ ih => exact .node (hlookup _ ▸ hb) hn T ih

/-- A node with a name is written as that name. -/
theorem expressionWith_name (hg : g.Acyclic) (hname : s.bound.lookup id = some name) :
    s.expressionWith g id name = s.expression g := by
  have hlookup : ∀ other, s.bound.lookup other = ((id, name) :: s.bound).lookup other := by
    intro other
    by_cases heq : other = id
    · rw [heq, hname, List.lookup_cons_self]
    · rw [lookup_cons_of_ne heq]
  exact (renders_render hg _ _).unique ((renders_render hg _ _).congr hlookup)

/-! ### The places of a program, together -/

/-- A place that copies a node shows it. -/
theorem IsProgram.shows_of_copies (h : IsProgram g p) (hg : Straight g)
    (hcycles : ∀ v, ¬ TransGen g.digraph.Arrow v v) (hid : Applies g id) (hunread : Unread g id)
    (hs : s ∈ p.places) (hcopies : s.Copies g id) : Shows g id s.node := by
  obtain ⟨hb, text, hne⟩ := hcopies
  by_contra hnot
  refine hne (render_cons_of_not_shows hg hid hunread hb hnot fun x hx => ?_)
  rcases h.place_cases hg.loops hs with ⟨before, a, after, hsplit, rfl⟩ | ⟨root, hroot, _, rfl, -⟩
  · exact h.fed_free hg.loops hcycles hsplit hx
  · exact fun other _ hneeds => h.exists_name hg.loops (List.ne_nil_of_mem hroot) hneeds

/-- A temporary whose expression copies a node is that of the node. -/
theorem IsProgram.node_eq_of_copies (h : IsProgram g p) (hg : Straight g)
    (hcycles : ∀ v, ¬ TransGen g.digraph.Arrow v v) (hid : Applies g id) (hunread : Unread g id)
    (ha : a ∈ p.free) (hcopies : a.place.Copies g id) : a.node = id := by
  have hs : a.place ∈ p.places := List.mem_append_left _ (List.mem_map_of_mem ha)
  have happlies := applies_of_needsTemporary (h.mem_free ha).2
  rcases h.shows_of_copies hg hcycles hid hunread hs hcopies with heq | ⟨n, -, hn, hkind, -⟩
  · exact heq
  · exact absurd hkind (happlies.kind_ne_output hn)

/-- Two places do not both copy a node. -/
theorem IsProgram.places_pairwise (h : IsProgram g p) (hg : Straight g)
    (hcycles : ∀ v, ¬ TransGen g.digraph.Arrow v v) (hids : g.ids.Nodup) (hid : Applies g id)
    (hunread : Unread g id) :
    p.places.Pairwise fun s s' => ¬ (s.Copies g id ∧ s'.Copies g id) := by
  refine List.pairwise_append.2 ⟨?_, ?_, ?_⟩
  -- two temporaries
  · refine List.pairwise_map.2 ((List.pairwise_map.1 h.nodes_nodup).imp_of_mem ?_)
    rintro a b ha hb hne ⟨hcopies, hcopies'⟩
    exact hne ((h.node_eq_of_copies hg hcycles hid hunread ha hcopies).trans
      (h.node_eq_of_copies hg hcycles hid hunread hb hcopies').symm)
  -- two results: the node would have a temporary, and be read from it
  · have hnodes : (p.results.map RootCode.root).Pairwise fun r r' => r.node ≠ r'.node := by
      rw [h.results.map_root]
      exact List.pairwise_map.1 (Graph.roots_nodup hids)
    refine List.pairwise_filterMap.2 ((List.pairwise_map.1 hnodes).imp_of_mem ?_)
    rintro code code' hcode hcode' hne s hs s' hs' ⟨hcopies, hcopies'⟩
    have hshows := h.shows_of_copies hg hcycles hid hunread
      (List.mem_append_right _ (List.mem_filterMap.2 ⟨code, hcode, hs⟩)) hcopies
    have hshows' := h.shows_of_copies hg hcycles hid hunread
      (List.mem_append_right _ (List.mem_filterMap.2 ⟨code', hcode', hs'⟩)) hcopies'
    obtain ⟨r, text, rfl, hr, -⟩ := h.exists_direct hg.loops hcode
    obtain ⟨r', text', rfl, hr', -⟩ := h.exists_direct hg.loops hcode'
    obtain rfl := Option.some.inj hs
    obtain rfl := Option.some.inj hs'
    have hneeds := needsTemporary_of_shows hg.loops hids hid hr hr' hne hshows hshows'
    rw [h.needsTemporary_eq_false hg.loops (List.ne_nil_of_mem hr) hcopies.1] at hneeds
    cases hneeds
  -- a temporary and a result
  · intro s hs s' hs' ⟨hcopies, hcopies'⟩
    obtain ⟨a, ha, rfl⟩ := List.mem_map.1 hs
    obtain ⟨code, hcode, hplace⟩ := List.mem_filterMap.1 hs'
    obtain ⟨r, text, rfl, hr, -⟩ := h.exists_direct hg.loops hcode
    obtain rfl := Option.some.inj hplace
    have hneeds := (h.mem_free ha).2
    rw [h.node_eq_of_copies hg hcycles hid hunread ha hcopies,
      h.needsTemporary_eq_false hg.loops (List.ne_nil_of_mem hr) hcopies'.1] at hneeds
    cases hneeds

/-- A copy is all of the expression. -/
theorem IsProgram.copied (h : IsProgram g p) (hg : Straight g)
    (hcycles : ∀ v, ¬ TransGen g.digraph.Arrow v v) (hid : Applies g id) (hunread : Unread g id)
    (hs : s ∈ p.places) (hcopies : s.Copies g id) :
    s.expression g = assignment g s.bound id ∧ ∀ text, s.expressionWith g id text = .ok text := by
  have hshows := h.shows_of_copies hg hcycles hid hunread hs hcopies
  refine Code.copied hg.acyclic hid (hg.loops id) hshows (fun hne => ?_) hcopies.1
  obtain ⟨n, e, hn, hkind, -⟩ := hshows.resolve_left hne
  cases hlookup : s.bound.lookup s.node with
  | none => rfl
  | some name =>
    have happlies := h.applies_of_mem_bound hg.loops hs (mem_of_lookup hlookup)
    exact absurd hkind (happlies.kind_ne_output hn)

end NodeFlow.Code
