import NodeFlow.Proofs.Code.Definition
import NodeFlow.Proofs.Code.Places
import NodeFlow.Proofs.Code.Steps
import NodeFlow.Proofs.Graph.Loops

/-!
# Passes of a loop

On each pass of a loop, the nodes of its block that need temporaries are assigned one after the
other, and then its tests and its result are written over their names.  In a block without cycles
each of them is assigned once, behind all of those from which data flows to it inside the block, and
wherever its value is read inside the block it is written as its name (`assigned_once`).
-/

open Relation

namespace NodeFlow

namespace Graph

variable {g : Graph} {ids : List String} {id other last : String} {way : List String}

/-- Data runs from one node to another along an edge inside of some nodes. -/
def FlowsIn (g : Graph) (ids : List String) (id other : String) : Prop :=
  id ∈ ids ∧ other ∈ ids ∧ g.Carries id other

theorem FlowsIn.arrow {among : List String} (h : g.FlowsIn ids id other)
    (hamong : ∀ v ∈ ids, v ∈ g.ids → v ∈ among) : (g.restrict among).Arrow id other := by
  obtain ⟨hid, hother, hid', hother', e, he, -, hends⟩ := h
  exact arrow_restrict_iff.2 ⟨⟨e, he, hends⟩, hamong id hid hid', hamong other hother hother'⟩

/-- In the order of some nodes without a cycle among them, no data flows backwards. -/
theorem order_pairwise_flowsIn (hcycles : ∀ v, ¬ TransGen (g.restrict ids).Arrow v v) :
    (g.order ids).Pairwise fun v u => ¬ TransGen (g.FlowsIn ids) u v := by
  -- the order is that of the graph between the nodes of `ids`, listed as the graph lists them
  let among := g.distinctIds.filter ids.contains
  have hamong : ∀ v ∈ ids, v ∈ g.ids → v ∈ among := fun v hv hv' =>
    List.mem_filter.2 ⟨mem_distinctIds.2 hv', List.contains_iff_mem.2 hv⟩
  have hmono : ∀ v u, (g.restrict among).Arrow v u → (g.restrict ids).Arrow v u := by
    intro v u harrow
    obtain ⟨hedge, hv, hu⟩ := arrow_restrict_iff.1 harrow
    exact arrow_restrict_iff.2 ⟨hedge, List.contains_iff_mem.1 (List.mem_filter.1 hv).2,
      List.contains_iff_mem.1 (List.mem_filter.1 hu).2⟩
  have hback : (g.order ids).Pairwise fun v u => ReflTransGen (g.restrict among).Arrow u v →
      (g.restrict among).Mutual u v := Digraph.order_pairwise_reaches (closed_restrict among)
  refine hback.imp ?_
  intro v u hpath hflows
  have harrows : TransGen (g.restrict among).Arrow u v :=
    TransGen.mono (fun _ _ hflow => hflow.arrow hamong) _ _ hflows
  exact hcycles u (TransGen.mono hmono _ _ (harrows.trans_left (hpath harrows.to_reflTransGen).2))

theorem Depends.carries (h : g.Depends other id) (hid : id ∈ g.ids) : g.Carries id other := by
  obtain ⟨n, hn⟩ := h.exists_node
  obtain ⟨e, he, rfl⟩ := (depends_iff hn).1 h
  obtain ⟨hedge, hin⟩ := List.mem_filter.1 (mem_dataIn_of_origin he)
  simp only [Bool.and_eq_true, beq_iff_eq, Bool.not_eq_true'] at hin
  exact ⟨hid, mem_ids_of_node? hn, e, hedge, hin.2, rfl, by rw [hin.1, node?_id hn]⟩

/-- A way down along dependencies is one up along which data flows. -/
theorem transGen_flowsIn_of_chain (hids : ids ⊆ g.ids) (hlast : [last] <:+ way)
    (hchain : (id :: way).IsChain fun u v => g.Depends v u) (hway : id :: way ⊆ ids) :
    TransGen (g.FlowsIn ids) id last := by
  induction way generalizing id with
  | nil => cases List.suffix_nil.1 hlast
  | cons other rest ih =>
    obtain ⟨hid, hrest⟩ := List.cons_subset.1 hway
    obtain ⟨hdepends, hchain'⟩ := List.isChain_cons_cons.1 hchain
    have hflows : g.FlowsIn ids id other :=
      ⟨hid, hrest List.mem_cons_self, hdepends.carries (hids hid)⟩
    rcases List.suffix_cons_iff.1 hlast with heq | hsuffix
    · obtain ⟨rfl, rfl⟩ := List.cons.inj heq
      exact .single hflows
    · exact .head hflows (ih hsuffix hchain' hrest)

end Graph

namespace Code

variable {g : Graph} {known outer : Bound} {root : Root} {loop id : String} {b : LoopBlock}
  {a : Assignment} {before after as : List Assignment} {p : Program} {steps : List Step}
  {key : Key} {text : String}

/-! ### The nodes of a block -/

/-- The nodes from which data flows, inside the loop of a block, to the root or to the source of a
signal, these included. -/
def LoopBlock.closure (g : Graph) (b : LoopBlock) : List String :=
  let signals := loopSignals.filterMap fun handle => g.inputEdge? b.loop (some handle)
  governedClosure g g.governed b.loop (b.root.node :: signals.map (·.source))

theorem closure_subset (g : Graph) (b : LoopBlock) : b.closure g ⊆ g.ids := fun _ hid =>
  Graph.mem_ids_of_reached (Graph.isSome_loopOf?_iff.1
    (Option.isSome_iff_exists.2 ⟨_, loopOf?_of_mem_governedClosure hid⟩))

theorem IsLoopBlock.mem_nodes_iff (h : IsLoopBlock g known b.root b.loop b) :
    id ∈ b.body.map (·.node) ↔ id ∈ b.closure g ∧ needsTemporary g g.governed id = true := by
  rw [h.nodes, blockNodes, List.mem_filter, Graph.mem_order_iff]
  exact and_congr_left fun _ => and_iff_right_of_imp fun hid => closure_subset g b hid

theorem IsLoopBlock.nodes_nodup (h : IsLoopBlock g known root loop b) :
    (b.body.map (·.node)).Nodup :=
  h.nodes ▸ Graph.order_nodup.filter _

/-- A node is assigned behind all those from which data flows to it. -/
theorem IsLoopBlock.exists_before (h : IsLoopBlock g known b.root b.loop b)
    (hcycles : ∀ v, ¬ TransGen (g.restrict (b.closure g)).Arrow v v)
    (hbody : b.body = before ++ a :: after) (hneeds : needsTemporary g g.governed id = true)
    (hflows : TransGen (g.FlowsIn (b.closure g)) id a.node) : id ∈ before.map (·.node) := by
  obtain ⟨_, hfirst, -⟩ := TransGen.head'_iff.1 hflows
  have hmem := h.mem_nodes_iff.2 ⟨hfirst.1, hneeds⟩
  have hpairwise : (b.body.map (·.node)).Pairwise fun v u =>
      ¬ TransGen (g.FlowsIn (b.closure g)) u v :=
    h.nodes ▸ (Graph.order_pairwise_flowsIn hcycles).filter _
  rw [hbody, List.map_append, List.map_cons] at hmem hpairwise
  -- the node is assigned somewhere, and at its own place or later the data would run in a circle
  rcases List.mem_append.1 hmem with hbefore | hrest
  · exact hbefore
  · rcases List.mem_cons.1 hrest with rfl | hafter
    · exact absurd (TransGen.mono (fun _ _ h => h.arrow fun v hv _ => hv) _ _ hflows) (hcycles _)
    · have hback := (List.pairwise_append.1 hpairwise).2.1
      exact absurd hflows ((List.pairwise_cons.1 hback).1 id hafter)

/-! ### Names on a pass -/

/-- Behind some assignments, their nodes are written as the names that they are assigned. -/
theorem Rendering.eq_assigned {memo memo' : Memo} {way texts : List String}
    {keys : List (Option Key)} (h : Rendering g known way keys memo texts memo' steps)
    (hbound : known = (as.map Assignment.entry).reverse ++ outer) {step : Step}
    (hstep : step ∈ steps) (hnode : step.node ∈ as.map (·.node)) :
    step.writtenOut = false ∧ ∃ a ∈ as, a.node = step.node ∧ step.text = a.name := by
  obtain ⟨name, hname⟩ := exists_lookup_entries hnode
  obtain ⟨a, ha, hentry⟩ := List.mem_map.1 (List.mem_reverse.1 (mem_of_lookup hname))
  obtain ⟨hid, rfl⟩ := Prod.mk.inj hentry
  have hlookup : known.lookup step.node = some a.name := by
    rw [hbound, List.lookup_append, hname, Option.some_or]
  obtain ⟨htext, hwritten⟩ := h.eq_name hstep hlookup
  exact ⟨hwritten, a, ha, hid, htext⟩

/-- Inside of some nodes, those with temporaries are written as the names that they are assigned,
and never written out. -/
def NamedInside (g : Graph) (ids : List String) (as : List Assignment) (steps : List Step) : Prop :=
  ∀ step ∈ steps, needsTemporary g g.governed step.node = true → step.node :: step.way ⊆ ids →
    step.writtenOut = false ∧ ∃ a ∈ as, a.node = step.node ∧ step.text = a.name

/-- The expression of an assignment is written over the names of the assignments before it. -/
theorem IsLoopBlock.exists_rendering (h : IsLoopBlock g known b.root b.loop b)
    (hcycles : ∀ v, ¬ TransGen (g.restrict (b.closure g)).Arrow v v)
    (hbody : b.body = before ++ a :: after) : ∃ n parts memo steps, g.node? a.node = some n ∧
      Rendering g a.bound [a.node] ((g.origin n).wires.map wanted) [] parts memo steps ∧
      written none (g.origin n) parts = .ok a.expression ∧
      NamedInside g (b.closure g) before steps := by
  have ha : a ∈ b.body := by simp [hbody]
  obtain ⟨outer, -, hchain, -⟩ := h.chain
  rw [hbody] at hchain
  obtain ⟨n, hn, -⟩ := exists_node_of_needsTemporary (h.mem_body ha).2
  obtain ⟨parts, memo, steps, hrun, hexpression⟩ := rendering_assignment hn (h.body.of_mem ha).1
  refine ⟨n, parts, memo, steps, hn, hrun, hexpression, ?_⟩
  intro step hstep hneeds hinside
  obtain ⟨hsuffix, hway⟩ := hrun.chain (descends_wires hn (.singleton a.node)) hstep
  have hflows := Graph.transGen_flowsIn_of_chain (closure_subset g b) hsuffix hway hinside
  exact hrun.eq_assigned hchain.bound_eq hstep (h.exists_before hcycles hbody hneeds hflows)

/-- A text is written for an output behind the assignments of a pass, and inside of the block over
their names. -/
def LoopBlock.Reads (g : Graph) (b : LoopBlock) (key : Key) (text : String) : Prop :=
  ∃ memo steps, Rendering g b.bound [] [some key] [] [text] memo steps ∧
    NamedInside g (b.closure g) b.body steps

theorem IsLoopBlock.reads (h : IsLoopBlock g known b.root b.loop b)
    (htext : render g b.bound key = .ok text) : b.Reads g key text := by
  obtain ⟨outer, -, -, hbound⟩ := h.chain
  obtain ⟨memo, steps, hrun⟩ := rendering_render htext
  refine ⟨memo, steps, hrun, fun step hstep hneeds hinside => ?_⟩
  have hmem : step.node ∈ b.body.map (·.node) :=
    h.mem_nodes_iff.2 ⟨hinside List.mem_cons_self, hneeds⟩
  exact hrun.eq_assigned hbound hstep hmem

theorem exists_reads {test : Option String} {e? : Option Edge}
    (h : IsLoopBlock g known b.root b.loop b)
    (htest : IsTest g b.bound e? test) :
    ∀ text ∈ test, ∃ e ∈ e?, b.Reads g (e.source, e.sourceHandle) text := by
  intro text htext
  obtain ⟨e, he, hrender⟩ := htest.exists_edge htext
  exact ⟨e, he, h.reads hrender⟩

/-! ### Lines of a pass -/

/-- A line of the passes of a loop gives a name its value. -/
def assignsOnPass (name : String) (l : Line) : Bool :=
  2 ≤ l.depth && l.statement.target? == some name

/-- The only line of a pass that assigns a temporary is its own. -/
theorem IsProgram.filter_pass (h : IsProgram g p) (hcode : .looped b ∈ p.results) (ha : a ∈ b.body)
    (number : Nat) :
    (b.layout number).filter (assignsOnPass a.name) = [a.layout 2 (b.region number)] := by
  obtain ⟨-, ⟨known, hb⟩, -⟩ := h.looped hcode
  have ha' : a ∈ p.assignments := mem_assignments hcode ha
  have hunder : "_" ≠ a.name := h.ne_name ha' (by decide)
  have hvalue : "_val" ≠ a.name := h.ne_name ha' (by decide)
  have hlast : "_last" ≠ a.name := h.ne_name ha' (by decide)
  have hcount : "_i" ≠ a.name := h.ne_name ha' (by decide)
  have opening : ∀ l ∈ b.opening number, ¬ assignsOnPass a.name l = true :=
    fun l hl => by simp [assignsOnPass, (of_mem_opening hl).1]
  have passLayout : ∀ l ∈ b.passLayout number, ¬ assignsOnPass a.name l = true := by
    simp [LoopBlock.passLayout, assignsOnPass, Statement.target?, hunder]
  have closing : ∀ l ∈ b.closing number, ¬ assignsOnPass a.name l = true := by
    simp [forall_mem_closing, assignsOnPass, Statement.target?, hvalue, hlast, hcount]
  have body : b.body.filter (assignsOnPass a.name ∘ Assignment.layout 2 (b.region number)) = [a] :=
    h.filter_name (fun _ => mem_assignments hcode) hb.nodes_nodup ha
  simp only [LoopBlock.layout, List.filter_append, List.filter_eq_nil_iff.2 opening,
    List.filter_eq_nil_iff.2 passLayout, List.filter_eq_nil_iff.2 closing, List.filter_map, body]
  rfl

/-- **A governed node is computed once on a pass, before its users.**  Take any graph and any block
of a loop in its code, and let no cycle run along the edges between the nodes of its closure, all
edges counted.  Each node of the closure that needs a temporary has one assignment in the block, and
on one line of the passes.  It stands behind the assignments of all such nodes from which data flows
to it inside of the closure.  So wherever the writing of an assignment, a test or the result comes
to such a node along data edges inside of the closure, it writes the name that the node was assigned
and does not write its expression out again. -/
theorem assigned_once {g : Graph} {cap : Nat} {p : Program} {b : LoopBlock}
    (hp : program g cap = .ok p) (hblock : .looped b ∈ p.results)
    (hcycles : ∀ id, ¬ TransGen (g.restrict (b.closure g)).Arrow id id) :
    (∀ number, (b.layout number).map Line.text = b.lines) ∧
    (∀ id ∈ b.closure g, needsTemporary g g.governed id = true → ∃ a,
      b.body.filter (·.node == id) = [a] ∧ ∀ number,
        (b.layout number).filter (assignsOnPass a.name) = [a.layout 2 (b.region number)]) ∧
    (∀ before a after, b.body = before ++ a :: after →
      (∀ id, needsTemporary g g.governed id = true →
        TransGen (g.FlowsIn (b.closure g)) id a.node → ∃ a' ∈ before, a'.node = id) ∧
      ∃ n parts memo steps, g.node? a.node = some n ∧
        Rendering g a.bound [a.node] ((g.origin n).wires.map wanted) [] parts memo steps ∧
        written none (g.origin n) parts = .ok a.expression ∧
        NamedInside g (b.closure g) before steps) ∧
    (∀ text ∈ b.continueTest, ∃ e ∈ g.inputEdge? b.loop (some "cont"),
      b.Reads g (e.source, e.sourceHandle) text) ∧
    (∀ text ∈ b.breakTest, ∃ e ∈ g.inputEdge? b.loop (some "brk"),
      b.Reads g (e.source, e.sourceHandle) text) ∧
    b.Reads g (b.root.node, none) b.result := by
  have hp := isProgram hp
  obtain ⟨-, ⟨known, h⟩, -⟩ := hp.looped hblock
  refine ⟨b.map_text_layout, fun id hid hneeds => ?_, fun before a after hbody => ⟨
    fun id hneeds hflows => ?_, h.exists_rendering hcycles hbody⟩, exists_reads h h.continueTest,
    exists_reads h h.breakTest, h.reads h.result⟩
  · obtain ⟨a, ha, rfl⟩ := List.mem_map.1 (h.mem_nodes_iff.2 ⟨hid, hneeds⟩)
    exact ⟨a, filter_node h.nodes_nodup ha, hp.filter_pass hblock ha⟩
  · exact List.mem_map.1 (h.exists_before hcycles hbody hneeds hflows)

/-- A counter that is counted up on each pass, for the test of a loop and for its result. -/
def counting : Graph where
  nodes := [⟨"name", none, .const (.str "n") .string none⟩,
    ⟨"one", none, .const (.int 1) .number none⟩, ⟨"yes", none, .const (.bool true) .boolean none⟩,
    ⟨"loop", none, .operator "while_loop" none []⟩, ⟨"step", none, .operator "add_assign" none []⟩,
    ⟨"zero", none, .operator "not" none []⟩, ⟨"out", none, .output "count" .null⟩]
  edges := [⟨none, "yes", none, "loop", some "cond"⟩,
    ⟨none, "loop", some "body", "step", some "scope"⟩,
    ⟨none, "name", none, "step", some "name"⟩, ⟨none, "one", none, "step", some "value"⟩,
    ⟨none, "step", none, "zero", some "a"⟩, ⟨none, "zero", none, "loop", some "cont"⟩,
    ⟨none, "step", none, "out", some "in"⟩]
  metadata := []

def countingBlock : LoopBlock where
  root := ⟨"out", "count"⟩
  loop := "loop"
  condition := "True"
  cap := "10"
  passInputs := []
  body := [⟨"step", "_x_value_1", [], "_set(vars, 'n', (_get(vars, 'n', 0) + (1)))"⟩]
  bound := [("step", "_x_value_1")]
  continueTest := some "(not _x_value_1)"
  breakTest := none
  result := "_x_value_1"

theorem assigned_once_counting :
    (∃ p, program counting 10 = .ok p ∧ p.results = [.looped countingBlock]) ∧
    (∀ id, ¬ TransGen (counting.restrict (countingBlock.closure counting)).Arrow id id) ∧
    (∃ a, countingBlock.body.filter (·.node == "step") = [a] ∧
      (countingBlock.layout 0).filter (assignsOnPass a.name) = [a.layout 2 (.block 0 "loop")]) ∧
    countingBlock.Reads counting ("zero", none) "(not _x_value_1)" ∧
    countingBlock.Reads counting ("out", none) "_x_value_1" := by
  have hprogram : (program counting 10).map Program.results = .ok [.looped countingBlock] := by
    decide +kernel
  obtain ⟨p, hp, hresults⟩ := Outcome.map_eq_ok_iff.1 hprogram
  have hcycles : ∀ id,
      ¬ TransGen (counting.restrict (countingBlock.closure counting)).Arrow id id :=
    (Digraph.hasCycle_eq_false_iff (Graph.closed_restrict _)).1 (by decide +kernel)
  have hblock : .looped countingBlock ∈ p.results := by simp [hresults]
  obtain ⟨-, honce, -, htest, -, hresult⟩ := assigned_once hp hblock hcycles
  obtain ⟨a, hbody, hline⟩ := honce "step" (by decide +kernel) (by decide +kernel)
  obtain ⟨e, he, hreads⟩ := htest _ rfl
  have hedge : counting.inputEdge? "loop" (some "cont") =
      some ⟨none, "zero", none, "loop", some "cont"⟩ := by decide +kernel
  obtain rfl := Option.some.inj (he.symm.trans hedge)
  exact ⟨⟨p, hp, hresults⟩, hcycles, ⟨a, hbody, hline 0⟩, hreads, hresult⟩

end Code

end NodeFlow
