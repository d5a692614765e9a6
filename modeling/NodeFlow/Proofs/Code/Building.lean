import NodeFlow.Code.Program
import NodeFlow.Proofs.Code.Closure
import NodeFlow.Proofs.Code.Expression
import NodeFlow.Proofs.Code.Names
import NodeFlow.Proofs.Code.Rendering
import NodeFlow.Proofs.Digraph.Reach
import NodeFlow.Proofs.Graph.Order

/-!
# How a program is built

What the parts of a program are rendered over.  Temporaries are assigned one after the other, each
over the names of those before it (`Chain`): first the free ones, then in each loop those of nodes
that the loop governs, over the free names and the names of other loops before it (`IsLoopBlock`,
`IsProgram`).  What a loop tests and evaluates besides is written out in full (`IsInput`).  While a
program is built, the names that were given out differ, the nodes assigned in earlier loops are
among those assigned before, and the expressions that are kept are right (`Good`); each step keeps
this.  There is a program unless something that it is written with cannot be written
(`hasUnwritable_of_program`).
-/

namespace NodeFlow.Code

/-- The node that is assigned, with its name. -/
def Assignment.entry (a : Assignment) : String × String := (a.node, a.name)

/-- The assignments of the code of a root. -/
def RootCode.body : RootCode → List Assignment
  | direct .. => []
  | looped block => block.body

/-- The assignments of a program, in order. -/
def Program.assignments (p : Program) : List Assignment := p.free ++ p.results.flatMap RootCode.body

/-! ### What is built -/

/-- The assignments follow each other over the names that are known at first and those that were
assigned before. -/
def Emitted (g : Graph) : Bound → List Assignment → Prop
  | _, [] => True
  | known, a :: rest =>
    (a.bound ⊆ known ∧ assignment g a.bound a.node = .ok a.expression ∧
      needsTemporary g g.governed a.node = true) ∧ Emitted g (a.entry :: known) rest

/-- The first assignment is over `bound`, and each of the others over one more name. -/
def Chain (g : Graph) : Bound → List Assignment → Prop
  | _, [] => True
  | bound, a :: rest =>
    (a.bound = bound ∧ assignment g bound a.node = .ok a.expression) ∧ Chain g (a.entry :: bound) rest

/-- The nodes that are assigned in a block of a loop for a root, in order. -/
def blockNodes (g : Graph) (root : Root) (loop : String) : List String :=
  let signals := loopSignals.filterMap fun handle => g.inputEdge? loop (some handle)
  (g.order (governedClosure g g.governed loop (root.node :: signals.map (·.source)))).filter
    (needsTemporary g g.governed)

/-- The free nodes that are assigned, in order. Without roots there are none. -/
def freeNodes (g : Graph) : List String :=
  if g.roots.isEmpty then []
  else
    (g.order (g.ids.filter fun id => (g.loopOf? id).isNone)).filter (needsTemporary g g.governed)

/-- The expression for an input that an edge is wired to is right, or it is the default where there
is no edge. -/
def IsInput (g : Graph) (default : String) (e : Option Edge) (text : String) : Prop :=
  match e with
  | none => text = default
  | some e => IsText g (e.source, e.sourceHandle) text

/-- A test for an input that an edge is wired to is what comes in, over bound names. -/
def IsTest (g : Graph) (bound : Bound) (e : Option Edge) (test : Option String) : Prop :=
  (e.mapM fun e => render g bound (e.source, e.sourceHandle)) = .ok test

/-- The block of a loop for a root that it governs. -/
structure IsLoopBlock (g : Graph) (known : Bound) (root : Root) (loop : String) (b : LoopBlock) :
    Prop where
  root_eq : b.root = root
  loop_eq : b.loop = loop
  condition : IsInput g "False" (g.inputEdge? loop (some "cond")) b.condition
  cap : ∃ limit : Nat, IsInput g (toString limit) (g.inputEdge? loop (some "max")) b.cap
  passInputs : ∀ text ∈ b.passInputs, ∃ handle ∈ passHandles g loop,
    IsInput g "" (g.inputEdge? loop (some handle)) text
  nodes : b.body.map (·.node) = blockNodes g root loop
  chain : ∃ outer : Bound, (∀ e ∈ outer, e ∈ known ∧ g.loopOf? e.1 ≠ some loop) ∧
    Chain g outer b.body ∧ b.bound = (b.body.map Assignment.entry).reverse ++ outer
  continueTest : IsTest g b.bound (g.inputEdge? loop (some "cont")) b.continueTest
  breakTest : IsTest g b.bound (g.inputEdge? loop (some "brk")) b.breakTest
  result : render g b.bound (root.node, none) = .ok b.result

/-- The code of a root: its expression over the free names, or the block of the loop that governs
it. -/
def IsRootCode (g : Graph) (free known : Bound) (root : Root) (code : RootCode) : Prop :=
  match g.loopOf? root.node with
  | none => ∃ text, code = .direct root text ∧ render g free (root.node, none) = .ok text
  | some loop => ∃ b, code = .looped b ∧ IsLoopBlock g known root loop b

/-- The codes of roots follow each other. -/
def RootsEmitted (g : Graph) (free : Bound) : Bound → List Root → List RootCode → Prop
  | _, [], codes => codes = []
  | known, root :: roots, codes => ∃ code rest, codes = code :: rest ∧
    IsRootCode g free known root code ∧
    RootsEmitted g free (code.body.map Assignment.entry ++ known) roots rest

/-- The names that are bound after the free temporaries were assigned. -/
def Program.freeBound (p : Program) : Bound := (p.free.map Assignment.entry).reverse

/-- The parts of a program belong to a graph. -/
structure IsProgram (g : Graph) (p : Program) : Prop where
  nodes : p.free.map (·.node) = freeNodes g
  chain : Chain g [] p.free
  results : RootsEmitted g p.freeBound (p.free.map Assignment.entry) g.roots p.results
  names : ∀ a ∈ p.assignments, ∀ b ∈ p.assignments, a.name = b.name ↔ a.node = b.node
  temporaries : ∀ a ∈ p.assignments, ∃ t : TemporaryName, t.base = nameBase g a.node ∧
    t.text = a.name

theorem entry_mem_of_mem_assignments {p : Program} {a : Assignment} (ha : a ∈ p.assignments) :
    a.entry ∈ (p.results.flatMap RootCode.body).map Assignment.entry ++
      p.free.map Assignment.entry := by
  rcases List.mem_append.1 ha with ha | ha
  · exact List.mem_append_right _ (List.mem_map_of_mem ha)
  · exact List.mem_append_left _ (List.mem_map_of_mem ha)

variable {g : Graph} {known known' bound : Bound} {as as' : List Assignment} {p : Progress}

theorem Emitted.congr (h : ∀ e, e ∈ known ↔ e ∈ known') (has : Emitted g known as) :
    Emitted g known' as := by
  induction as generalizing known known' with
  | nil => trivial
  | cons a rest ih =>
    obtain ⟨⟨hbound, ha⟩, hrest⟩ := has
    refine ⟨⟨fun e he => (h e).1 (hbound he), ha⟩, ih (fun e => ?_) hrest⟩
    rw [List.mem_cons, List.mem_cons, h]

theorem Emitted.append (has : Emitted g known as)
    (has' : Emitted g (as.map Assignment.entry ++ known) as') : Emitted g known (as ++ as') := by
  induction as generalizing known with
  | nil => exact has'
  | cons a rest ih =>
    obtain ⟨ha, hrest⟩ := has
    exact ⟨ha, ih hrest (has'.congr fun e => List.perm_middle.symm.mem_iff)⟩

theorem Chain.emitted (h : Chain g bound as) (hbound : bound ⊆ known)
    (hneeds : ∀ a ∈ as, needsTemporary g g.governed a.node = true) : Emitted g known as := by
  induction as generalizing bound known with
  | nil => trivial
  | cons a rest ih =>
    obtain ⟨⟨rfl, ha⟩, hrest⟩ := h
    refine ⟨⟨hbound, ha, hneeds a List.mem_cons_self⟩, ?_⟩
    exact ih hrest (List.cons_subset_cons _ hbound) fun b hb => hneeds b (List.mem_cons_of_mem a hb)

/-- An assignment is over the names before the first one and those assigned before it. -/
theorem Chain.bound_eq {before after : List Assignment} {a : Assignment}
    (h : Chain g bound (before ++ a :: after)) :
    a.bound = (before.map Assignment.entry).reverse ++ bound := by
  induction before generalizing bound with
  | nil => exact h.1.1
  | cons b rest ih =>
    rw [ih h.2, List.map_cons, List.reverse_cons, List.append_assoc]
    rfl

/-! ### Nodes that are assigned -/

variable {root : Root} {loop id : String}

theorem mem_blockNodes (h : id ∈ blockNodes g root loop) :
    g.loopOf? id = some loop ∧ needsTemporary g g.governed id = true := by
  obtain ⟨horder, hneeds⟩ := List.mem_filter.1 h
  exact ⟨loopOf?_of_mem_governedClosure (Graph.mem_order_iff.1 horder).2, hneeds⟩

theorem mem_freeNodes : id ∈ freeNodes g ↔ g.roots ≠ [] ∧
    id ∈ g.ids ∧ g.loopOf? id = none ∧ needsTemporary g g.governed id = true := by
  by_cases hroots : g.roots = [] <;>
    simp [freeNodes, hroots, Graph.mem_order_iff, and_assoc]

theorem IsLoopBlock.mem_body {b : LoopBlock} (h : IsLoopBlock g known root loop b) {a : Assignment}
    (ha : a ∈ b.body) : g.loopOf? a.node = some loop ∧ needsTemporary g g.governed a.node = true :=
  mem_blockNodes (h.nodes ▸ List.mem_map_of_mem ha)

theorem IsProgram.mem_free {p : Program} (h : IsProgram g p) {a : Assignment} (ha : a ∈ p.free) :
    g.loopOf? a.node = none ∧ needsTemporary g g.governed a.node = true :=
  (mem_freeNodes.1 (h.nodes ▸ List.mem_map_of_mem ha)).2.2

theorem freeNodes_nodup (g : Graph) : (freeNodes g).Nodup := by
  rw [freeNodes]
  split
  · exact List.nodup_nil
  · exact Graph.order_nodup.filter _

theorem IsProgram.nodes_nodup {p : Program} (h : IsProgram g p) : (p.free.map (·.node)).Nodup :=
  h.nodes ▸ freeNodes_nodup g

theorem IsLoopBlock.body {b : LoopBlock} (h : IsLoopBlock g known root loop b) :
    Emitted g known b.body := by
  obtain ⟨outer, houter, hchain, -⟩ := h.chain
  exact hchain.emitted (fun e he => (houter e he).1) fun a ha => (h.mem_body ha).2

theorem IsLoopBlock.bound_subset {b : LoopBlock} (h : IsLoopBlock g known root loop b) :
    b.bound ⊆ b.body.map Assignment.entry ++ known := by
  obtain ⟨outer, houter, -, hbound⟩ := h.chain
  intro e he
  rw [hbound] at he
  rcases List.mem_append.1 he with he | he
  · exact List.mem_append_left known (List.mem_reverse.1 he)
  · exact List.mem_append_right _ (houter e he).1

theorem IsProgram.free {p : Program} (h : IsProgram g p) : Emitted g [] p.free :=
  h.chain.emitted (List.nil_subset _) fun _ ha => (h.mem_free ha).2

/-! ### Each step -/

/-- The names given out differ, each of the base for its node; the known ones and those of looped
nodes are among them.  The expressions that are kept are right. -/
structure Good (g : Graph) (known : Bound) (p : Progress) : Prop where
  distinct : Distinct p.names
  based : Based g p.names
  given : Given p.names known
  looped : p.looped ⊆ known
  inlined : Right g p.inlined

theorem Good.congr (h : ∀ e, e ∈ known ↔ e ∈ known') (hp : Good g known p) : Good g known' p where
  distinct := hp.distinct
  based := hp.based
  given e he := hp.given e ((h e).2 he)
  looped e he := (h e).1 (hp.looped he)
  inlined := hp.inlined

theorem good_nil (g : Graph) : Good g [] ⟨[], [], []⟩ :=
  ⟨distinct_nil, nofun, nofun, nofun, right_nil g⟩

/-- Something that a program is written with cannot be written: a constant of the graph, or the
number of passes that a loop takes at most. -/
def HasUnwritable (g : Graph) (cap : Nat) : Prop :=
  (∃ id, g.Unwritable id) ∨ (Number.int cap).source = .error ⟨⟩

variable {cap : Nat}

theorem yields_nameFor (g : Graph) (id : String) (R : Prop) :
    Yields (Good g known) (nameFor g id) (fun name p => Good g ((id, name) :: known) p) R := by
  intro p hp
  obtain ⟨distinct, based, given⟩ :=
    triple_temporaryName g id known p.names ⟨hp.distinct, hp.based, hp.given⟩
  exact ⟨distinct, based, given, fun e he => List.mem_cons_of_mem _ (hp.looped he), hp.inlined⟩

theorem yields_inlineInput (e : Option Edge) (default : String) :
    Yields (Good g known) (inlineInput g e default)
      (fun text p => IsInput g default e text ∧ Good g known p) (HasUnwritable g cap) := by
  intro p hp
  cases e with
  | none => exact ⟨rfl, hp⟩
  | some e =>
    obtain ⟨htext, hinlined⟩ := right_inline hp.inlined (e.source, e.sourceHandle)
    have hanswer : Yields (Good g known)
        (liftM ((inline g (e.source, e.sourceHandle)).run p.inlined).1 : Build String)
        (fun text p => IsInput g default (some e) text ∧ Good g known p) (HasUnwritable g cap) :=
      .lift (fun text h _ good => ⟨htext text h, good⟩) fun _ herror =>
        .inl ⟨e.source, unwritable_of_inline herror⟩
    exact hanswer _ ⟨hp.distinct, hp.based, hp.given, hp.looped, hinlined⟩

theorem yields_passInputTexts (loop : String) (handles : List String) :
    Yields (Good g known) (passInputTexts g loop handles) (fun texts p =>
      (∀ text ∈ texts, ∃ handle ∈ handles, IsInput g "" (g.inputEdge? loop (some handle)) text) ∧
      Good g known p) (HasUnwritable g cap) := by
  induction handles with
  | nil => exact .pure fun _ h => ⟨List.forall_mem_nil _, h⟩
  | cons handle rest ih =>
    refine (yields_inlineInput _ _).bind fun text => .assume fun htext => ?_
    refine ih.bind fun others => .pure fun _ h => ⟨?_, h.2⟩
    have hothers : ∀ t ∈ others, ∃ handle' ∈ handle :: rest,
        IsInput g "" (g.inputEdge? loop (some handle')) t := by
      intro t ht
      obtain ⟨handle', hhandle, hinput⟩ := h.1 t ht
      exact ⟨handle', List.mem_cons_of_mem _ hhandle, hinput⟩
    split
    · exact hothers
    · refine List.forall_mem_cons.2 ⟨⟨handle, List.mem_cons_self, htext⟩, fun t ht => ?_⟩
      exact hothers t (List.mem_filter.1 ht).1

theorem yields_assignAll (hbound : bound ⊆ known) (ids : List String) :
    Yields (Good g known) (assignAll g bound ids) (fun result p =>
      (result.1.map (·.node) = ids ∧ Chain g bound result.1 ∧
        result.2 = (result.1.map Assignment.entry).reverse ++ bound) ∧
      Good g (result.1.map Assignment.entry ++ known) p) (HasUnwritable g cap) := by
  induction ids generalizing bound known with
  | nil => exact .pure fun _ h => ⟨⟨rfl, trivial, rfl⟩, h⟩
  | cons id rest ih =>
    rw [assignAll]
    refine Yields.bind (Q := fun text p => assignment g bound id = .ok text ∧ Good g known p)
      (.lift (fun _ htext _ hp => ⟨htext, hp⟩) fun _ herror =>
        .inl ⟨id, unwritable_of_assignment herror⟩) fun text => .assume fun htext => ?_
    refine (yields_nameFor g id _).bind fun name => ?_
    have hbound' : (id, name) :: bound ⊆ (id, name) :: known := List.cons_subset_cons _ hbound
    refine (ih hbound').bind fun result => .pure fun p h => ?_
    obtain ⟨⟨hnodes, hchain, hfinal⟩, good⟩ := h
    refine ⟨⟨congrArg _ hnodes, ⟨⟨rfl, htext⟩, hchain⟩, ?_⟩, good.congr fun e => ?_⟩
    · show result.2 = _
      rw [hfinal, List.map_cons, List.reverse_cons, List.append_assoc]
      rfl
    · exact List.perm_middle.mem_iff

/-- What is written over bound names, or else a constant cannot be written. -/
theorem yields_render (bound : Bound) (key : Key) {P : Progress → Prop} :
    Yields P (liftM (render g bound key) : Build String)
      (fun text p => render g bound key = .ok text ∧ P p) (HasUnwritable g cap) :=
  .lift (fun _ htext _ hp => ⟨htext, hp⟩) fun _ herror => .inl ⟨key.1, unwritable_of_render herror⟩

theorem yields_test (bound : Bound) (e : Option Edge) {P : Progress → Prop} :
    Yields P (liftM (e.mapM fun e => render g bound (e.source, e.sourceHandle)) :
        Build (Option String))
      (fun test p => IsTest g bound e test ∧ P p) (HasUnwritable g cap) := by
  refine .lift (fun _ htest _ hp => ⟨htest, hp⟩) fun _ herror => ?_
  cases e with
  | none => cases herror
  | some e =>
    have hrender : render g bound (e.source, e.sourceHandle) = .error ⟨⟩ :=
      Outcome.map_eq_error_iff.1 herror
    exact .inl ⟨e.source, unwritable_of_render hrender⟩

theorem yields_limit (cap : Nat) {P : Progress → Prop} :
    Yields P (liftM (Number.int cap).source : Build String)
      (fun limit p => limit = toString cap ∧ P p) (HasUnwritable g cap) := by
  refine .lift (fun limit hlimit _ hp => ⟨?_, hp⟩) fun _ herror => .inr herror
  exact (Number.literal_of_source hlimit).symm

theorem yields_loopBlock {free : Bound} (hfree : ∀ e ∈ free, e ∈ known ∧ g.loopOf? e.1 = none)
    (cap : Nat) (root : Root) (loop : String) :
    Yields (Good g known) (loopBlock g g.governed free cap root loop) (fun b p =>
      IsLoopBlock g known root loop b ∧ Good g (b.body.map Assignment.entry ++ known) p)
      (HasUnwritable g cap) := by
  rw [loopBlock]
  refine (yields_inlineInput _ _).bind fun condition => .assume fun hcondition => ?_
  refine (yields_limit cap).bind fun limit => .assume fun hlimit => ?_
  refine (yields_inlineInput _ _).bind fun most => .assume fun hmost => ?_
  refine (yields_passInputTexts loop _).bind fun passInputs => .assume fun hpassInputs => ?_
  refine (Yields.get (Q := fun q p => q.looped ⊆ known ∧ Good g known p)
    fun p hp => ⟨hp.looped, hp⟩).bind fun q => .assume fun hq => ?_
  let outer := q.looped.filter (fun e => g.governed.lookup e.1 != some loop) ++ free
  have houter : ∀ e ∈ outer, e ∈ known ∧ g.loopOf? e.1 ≠ some loop := by
    intro e he
    rcases List.mem_append.1 he with he | he
    · obtain ⟨hlooped, hloop⟩ := List.mem_filter.1 he
      exact ⟨hq hlooped, by simpa [Graph.loopOf?] using hloop⟩
    · obtain ⟨hknown, hloop⟩ := hfree e he
      exact ⟨hknown, by simp [hloop]⟩
  refine (yields_assignAll (fun e he => (houter e he).1) (blockNodes g root loop)).bind ?_
  rintro ⟨body, bound⟩
  refine .assume fun hbody => ?_
  obtain ⟨hnodes, hchain, hbound⟩ := hbody
  refine Yields.bind (Q := fun _ p => Good g (body.map Assignment.entry ++ known) p)
    (.modify fun p good => ?_) fun _ => ?_
  · refine ⟨good.distinct, good.based, good.given, ?_, good.inlined⟩
    exact List.append_subset.2 ⟨List.subset_append_left _ known, good.looped⟩
  refine (yields_test bound _).bind fun continueTest => .assume fun hcontinue => ?_
  refine (yields_test bound _).bind fun breakTest => .assume fun hbreak => ?_
  refine (yields_render bound _).bind fun result => .assume fun hresult => .pure fun p good => ?_
  exact ⟨⟨rfl, rfl, hcondition, ⟨cap, hlimit ▸ hmost⟩, hpassInputs, hnodes,
    ⟨outer, houter, hchain, hbound⟩, hcontinue, hbreak, hresult⟩, good⟩

theorem yields_rootCodes {free : Bound} (hfree : ∀ e ∈ free, e ∈ known ∧ g.loopOf? e.1 = none)
    (cap : Nat) (roots : List Root) :
    Yields (Good g known) (rootCodes g g.governed free cap roots) (fun codes p =>
      RootsEmitted g free known roots codes ∧
      Good g ((codes.flatMap RootCode.body).map Assignment.entry ++ known) p)
      (HasUnwritable g cap) := by
  induction roots generalizing known with
  | nil => exact .pure fun _ h => ⟨rfl, h⟩
  | cons root rest ih =>
    rw [rootCodes]
    have next (code : RootCode) (hcode : IsRootCode g free known root code) :
        Yields (Good g (code.body.map Assignment.entry ++ known))
          (do return code :: (← rootCodes g g.governed free cap rest)) (fun codes p =>
            RootsEmitted g free known (root :: rest) codes ∧
            Good g ((codes.flatMap RootCode.body).map Assignment.entry ++ known) p)
          (HasUnwritable g cap) := by
      have hfree' : ∀ e ∈ free, e ∈ code.body.map Assignment.entry ++ known ∧
          g.loopOf? e.1 = none :=
        fun e he => ⟨List.mem_append_right _ (hfree e he).1, (hfree e he).2⟩
      refine (ih hfree').bind fun codes => .pure fun p h => ?_
      refine ⟨⟨code, codes, rfl, hcode, h.1⟩, h.2.congr fun e => ?_⟩
      rw [List.flatMap_cons, List.map_append, List.append_assoc]
      exact (List.perm_append_comm_assoc _ _ known).mem_iff
    cases hl : g.governed.lookup root.node with
    | none =>
      refine (yields_render free _).bind fun text => .assume fun htext =>
        next (.direct root text) ?_
      rw [IsRootCode, Graph.loopOf?, hl]
      exact ⟨text, rfl, htext⟩
    | some loop =>
      refine Yields.bind (Q := fun code p => IsRootCode g free known root code ∧
        Good g (code.body.map Assignment.entry ++ known) p) (.map ?_) fun code =>
          .assume (next code)
      refine (yields_loopBlock hfree cap root loop).imp fun b p h => ⟨?_, h.2⟩
      rw [IsRootCode, Graph.loopOf?, hl]
      exact ⟨b, rfl, h.1⟩

/-- Without roots there is the empty program. -/
theorem isProgram_empty (hroots : g.roots = []) : IsProgram g ⟨[], []⟩ where
  nodes := by simp [freeNodes, hroots]
  chain := trivial
  results := by
    rw [hroots]
    exact rfl
  names := nofun
  temporaries := nofun

theorem yields_buildProgram (g : Graph) (cap : Nat) :
    Yields (Good g []) (buildProgram g cap) (fun program _ => IsProgram g program)
      (HasUnwritable g cap) := by
  rw [buildProgram]
  by_cases hroots : g.roots.isEmpty
  · rw [if_pos hroots]
    exact .pure fun _ _ => isProgram_empty (List.isEmpty_iff.1 hroots)
  rw [if_neg hroots]
  refine Yields.bind (yields_assignAll (List.nil_subset []) _) ?_
  rintro ⟨free, bound⟩
  refine .assume fun hassigned => ?_
  obtain ⟨hnodes, hchain, hfinal⟩ := hassigned
  have hfreeNodes : free.map (·.node) = freeNodes g := by
    rw [freeNodes, if_neg hroots]
    exact hnodes
  rw [List.append_nil] at hfinal
  obtain rfl : bound = (free.map Assignment.entry).reverse := hfinal
  have hfree : ∀ e ∈ (free.map Assignment.entry).reverse,
      e ∈ free.map Assignment.entry ++ [] ∧ g.loopOf? e.1 = none := by
    intro e he
    have hmem := List.mem_reverse.1 he
    obtain ⟨a, ha, rfl⟩ := List.mem_map.1 hmem
    have hnode : a.node ∈ freeNodes g := hfreeNodes ▸ List.mem_map_of_mem ha
    exact ⟨List.mem_append_left _ hmem, (mem_freeNodes.1 hnode).2.2.1⟩
  refine (yields_rootCodes hfree cap g.roots).bind fun codes => .pure fun p h => ?_
  obtain ⟨hroots, good⟩ := h
  rw [List.append_nil] at hroots good
  refine ⟨hfreeNodes, hchain, hroots, fun a ha b hb => ?_, fun a ha => ?_⟩
  · exact good.distinct.eq_iff good.given (entry_mem_of_mem_assignments ha)
      (entry_mem_of_mem_assignments hb)
  · obtain ⟨t, ht, htext⟩ := good.given a.entry (entry_mem_of_mem_assignments ha)
    exact ⟨t, good.based _ (mem_of_lookup ht), htext⟩

/-- What is built for a graph is its program. -/
theorem isProgram {p : Program} (h : program g cap = .ok p) : IsProgram g p :=
  ((yields_buildProgram g cap).run' (good_nil g)).1 p h

/-- A graph has a program, unless something that it is written with cannot be written. -/
theorem hasUnwritable_of_program (h : program g cap = .error ⟨⟩) : HasUnwritable g cap :=
  ((yields_buildProgram g cap).run' (good_nil g)).2 _ h

theorem exists_program (h : ¬ HasUnwritable g cap) : ∃ p, program g cap = .ok p := by
  cases hp : program g cap with
  | ok p => exact ⟨p, rfl⟩
  | error c => exact absurd (hasUnwritable_of_program hp) h

end NodeFlow.Code
