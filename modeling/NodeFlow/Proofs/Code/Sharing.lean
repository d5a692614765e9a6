import NodeFlow.Proofs.Code.Building
import NodeFlow.Proofs.Code.Expression
import NodeFlow.Proofs.Code.Segments

/-!
# Temporaries only share

In a program for a graph without cycles, every expression becomes the one with everything written
out when its names are replaced by the expressions that were assigned to them, in which names were
replaced likewise (`program_shares`).
-/

open NodeFlow.Outcome

namespace NodeFlow.Code

variable {g : Graph} {known bound free : Bound} {as : List Assignment} {roots : List Root}
  {codes : List RootCode} {E : String → String} {p : Program}

/-- The root of a code. -/
def RootCode.root : RootCode → Root
  | direct root _ => root
  | looped block => block.root

/-- `E` gives each temporary the expression that is assigned to it, in which the names are replaced
by what `E` gives them. -/
def Program.Expands (g : Graph) (p : Program) (E : String → String) : Prop :=
  ∀ a ∈ p.assignments, assignment g (replaceNames E a.bound) a.node = .ok (E a.name)

/-! ### Names that are bound -/

theorem Emitted.bound_subset (h : Emitted g known as) {a : Assignment} (ha : a ∈ as) :
    ∀ e ∈ a.bound, e ∈ as.map Assignment.entry ++ known := by
  induction as generalizing known with
  | nil => cases ha
  | cons b rest ih =>
    obtain ⟨⟨hbound, -⟩, hrest⟩ := h
    intro e he
    rcases List.mem_cons.1 ha with rfl | ha
    · exact List.mem_append_right _ (hbound he)
    · exact List.perm_middle.mem_iff.1 (ih hrest ha e he)

theorem Emitted.of_mem (h : Emitted g known as) {a : Assignment} (ha : a ∈ as) :
    assignment g a.bound a.node = .ok a.expression ∧
      needsTemporary g g.governed a.node = true := by
  induction as generalizing known with
  | nil => cases ha
  | cons b rest ih =>
    obtain ⟨⟨-, hb⟩, hrest⟩ := h
    rcases List.mem_cons.1 ha with rfl | ha
    · exact hb
    · exact ih hrest ha

variable {root : Root} {code : RootCode}

theorem IsRootCode.emitted (h : IsRootCode g free known root code) :
    Emitted g known code.body := by
  rw [IsRootCode] at h
  split at h
  · obtain ⟨text, rfl, -⟩ := h
    trivial
  · obtain ⟨b, rfl, hb⟩ := h
    exact hb.body

theorem IsRootCode.root_eq (h : IsRootCode g free known root code) : code.root = root := by
  rw [IsRootCode] at h
  split at h
  · obtain ⟨text, rfl, -⟩ := h
    rfl
  · obtain ⟨b, rfl, hb⟩ := h
    exact hb.root_eq

theorem RootsEmitted.emitted (h : RootsEmitted g free known roots codes) :
    Emitted g known (codes.flatMap RootCode.body) := by
  induction roots generalizing known codes with
  | nil =>
    obtain rfl := h
    trivial
  | cons root rest ih =>
    obtain ⟨code, others, rfl, hcode, hothers⟩ := h
    rw [List.flatMap_cons]
    exact hcode.emitted.append (ih hothers)

theorem RootsEmitted.map_root (h : RootsEmitted g free known roots codes) :
    codes.map RootCode.root = roots := by
  induction roots generalizing known codes with
  | nil =>
    obtain rfl := h
    rfl
  | cons root rest ih =>
    obtain ⟨code, others, rfl, hcode, hothers⟩ := h
    rw [List.map_cons, hcode.root_eq, ih hothers]

/-- The code of a root is written over names known at first and names assigned for earlier roots. -/
theorem RootsEmitted.of_mem (h : RootsEmitted g free known roots codes) (hcode : code ∈ codes) :
    ∃ before, (∀ e ∈ before, e ∈ (codes.flatMap RootCode.body).map Assignment.entry ++ known) ∧
      IsRootCode g free before code.root code := by
  induction roots generalizing known codes with
  | nil =>
    obtain rfl := h
    cases hcode
  | cons root rest ih =>
    obtain ⟨first, others, rfl, hfirst, hothers⟩ := h
    rcases List.mem_cons.1 hcode with rfl | hcode
    · refine ⟨known, fun e he => List.mem_append_right _ he, ?_⟩
      rw [hfirst.root_eq]
      exact hfirst
    · obtain ⟨before, hbefore, hroot⟩ := ih hothers hcode
      refine ⟨before, fun e he => ?_, hroot⟩
      rw [List.flatMap_cons, List.map_append, List.append_assoc]
      exact (List.perm_append_comm_assoc _ _ known).mem_iff.1 (hbefore e he)

theorem IsProgram.emitted (h : IsProgram g p) : Emitted g [] p.assignments :=
  h.free.append (by simpa using h.results.emitted)

theorem IsProgram.root_mem (h : IsProgram g p) (hcode : code ∈ p.results) :
    code.root ∈ g.roots := by
  rw [← h.results.map_root]
  exact List.mem_map_of_mem hcode

/-- The names that the code of a root is written over are those of temporaries of the program. -/
theorem IsProgram.of_mem (h : IsProgram g p) (hcode : code ∈ p.results) :
    ∃ before, (∀ e ∈ before, e ∈ p.assignments.map Assignment.entry) ∧
      IsRootCode g p.freeBound before code.root code := by
  obtain ⟨before, hbefore, hroot⟩ := h.results.of_mem hcode
  refine ⟨before, fun e he => ?_, hroot⟩
  have := hbefore e he
  rw [Program.assignments, List.map_append]
  exact List.mem_append.2 (List.mem_append.1 this).symm

theorem IsProgram.bound_subset (h : IsProgram g p) {a : Assignment} (ha : a ∈ p.assignments) :
    a.bound ⊆ p.assignments.map Assignment.entry := by
  have := h.emitted.bound_subset ha
  rwa [List.append_nil] at this

theorem freeBound_subset (p : Program) : p.freeBound ⊆ p.assignments.map Assignment.entry := by
  intro e he
  rw [Program.assignments, List.map_append]
  exact List.mem_append_left _ (List.mem_reverse.1 he)

theorem IsProgram.direct (h : IsProgram g p) {expression : String}
    (hcode : .direct root expression ∈ p.results) :
    g.loopOf? root.node = none ∧ render g p.freeBound (root.node, none) = .ok expression := by
  obtain ⟨before, -, hroot⟩ := h.of_mem hcode
  rw [IsRootCode] at hroot
  split at hroot
  · next hloop =>
    obtain ⟨text, hcode, htext⟩ := hroot
    obtain ⟨-, rfl⟩ := RootCode.direct.inj hcode
    exact ⟨hloop, htext⟩
  · obtain ⟨b, hb, -⟩ := hroot
    cases hb

theorem IsProgram.looped (h : IsProgram g p) {b : LoopBlock} (hcode : .looped b ∈ p.results) :
    g.loopOf? b.root.node = some b.loop ∧ (∃ before, IsLoopBlock g before b.root b.loop b) ∧
      b.bound ⊆ p.assignments.map Assignment.entry := by
  obtain ⟨before, hbefore, hroot⟩ := h.of_mem hcode
  rw [IsRootCode] at hroot
  split at hroot
  · obtain ⟨text, hcode, -⟩ := hroot
    cases hcode
  · next loop hloop =>
    obtain ⟨b', hb', hblock⟩ := hroot
    cases hb'
    rw [hblock.loop_eq]
    refine ⟨hloop, ⟨before, hblock⟩, fun e he => ?_⟩
    rcases List.mem_append.1 (hblock.bound_subset he) with he | he
    · obtain ⟨a, ha, rfl⟩ := List.mem_map.1 he
      refine List.mem_map_of_mem (List.mem_append_right _ ?_)
      exact List.mem_flatMap.2 ⟨.looped b, hcode, ha⟩
    · exact hbefore e he

/-! ### Expanded names -/

/-- Only nodes with a temporary are known, and `E` gives the name of each the expression of the
node. -/
def Expanded (g : Graph) (E : String → String) (known : Bound) : Prop :=
  ∀ e ∈ known, needsTemporary g g.governed e.1 = true ∧ g.expression (e.1, none) = .ok (E e.2)

theorem Expanded.boundTo (h : Expanded g E known) (hbound : bound ⊆ known) :
    BoundTo g g.expression (replaceNames E bound) := by
  intro id text hlookup
  rw [lookup_replaceNames, Option.map_eq_some_iff] at hlookup
  obtain ⟨name, hname, rfl⟩ := hlookup
  exact h (id, name) (hbound (mem_of_lookup hname))

/-- Along the assignments, each name is found to stand for the expression of its node, if it does so
where the names before it do. -/
theorem Emitted.expanded (hg : g.Acyclic) (h : Emitted g known as)
    (hE : ∀ a ∈ as, assignment g a.bound a.node = .ok a.expression →
      assignment g (replaceNames E a.bound) a.node = g.expression (a.node, none) →
      g.expression (a.node, none) = .ok (E a.name))
    (hknown : Expanded g E known) : Expanded g E (as.map Assignment.entry ++ known) := by
  induction as generalizing known with
  | nil => exact hknown
  | cons a rest ih =>
    obtain ⟨⟨hbound, hexpression, hneeds⟩, hrest⟩ := h
    have ha : g.expression (a.node, none) = .ok (E a.name) :=
      hE a List.mem_cons_self hexpression
        (assignment_eq_expression hg (hknown.boundTo hbound) a.node)
    have hknown' : Expanded g E (a.entry :: known) :=
      List.forall_mem_cons.2 ⟨⟨hneeds, ha⟩, hknown⟩
    intro e he
    refine ih hrest (fun b hb => hE b (List.mem_cons_of_mem a hb)) hknown' e ?_
    exact List.perm_middle.mem_iff.2 he

/-- The expression of the node that a name was given to. -/
def Program.meaning (g : Graph) (p : Program) (name : String) : String :=
  match p.assignments.find? (·.name == name) with
  | none => name
  | some a => (g.expression (a.node, none)).toOption.getD name

theorem IsProgram.meaning_name (h : IsProgram g p) {a : Assignment} (ha : a ∈ p.assignments)
    {text : String} (htext : g.expression (a.node, none) = .ok text) :
    p.meaning g a.name = text := by
  rw [Program.meaning]
  cases hfind : p.assignments.find? (·.name == a.name) with
  | none =>
    have := List.find?_eq_none.1 hfind a ha
    simp at this
  | some b =>
    have hname : b.name = a.name := by simpa using List.find?_some hfind
    have hnode := (h.names b (List.mem_of_find?_eq_some hfind) a ha).1 hname
    dsimp only
    rw [hnode, htext]
    rfl

theorem IsProgram.expanded_meaning (hg : g.Acyclic) (h : IsProgram g p) :
    Expanded g (p.meaning g) (p.assignments.map Assignment.entry) := by
  have hall := h.emitted.expanded (E := p.meaning g) hg (fun a ha hexpression hassignment => ?_)
    (fun e he => by cases he)
  · rwa [List.append_nil] at hall
  -- The expression of the node is there whatever stands for the names.
  have hstretches := stretches_assignment hg a.bound a.node
  have hplain : assignment g (replaceNames id a.bound) a.node = .ok a.expression := by
    rw [replaceNames_id]
    exact hexpression
  obtain ⟨text, htext⟩ := hstretches.exists_ok hplain (p.meaning g)
  rw [hassignment] at htext
  rw [htext, h.meaning_name ha htext]

theorem IsProgram.expands_meaning (hg : g.Acyclic) (h : IsProgram g p) :
    p.Expands g (p.meaning g) := by
  intro a ha
  have hbound := (h.expanded_meaning hg).boundTo (h.bound_subset ha)
  rw [assignment_eq_expression hg hbound]
  exact (h.expanded_meaning hg a.entry (List.mem_map_of_mem ha)).2

theorem IsProgram.expanded (hg : g.Acyclic) (h : IsProgram g p) (hE : p.Expands g E) :
    Expanded g E (p.assignments.map Assignment.entry) := by
  have hall := h.emitted.expanded (E := E) hg
    (fun a ha _ hassignment => hassignment.symm.trans (hE a ha)) (fun e he => by cases he)
  rwa [List.append_nil] at hall

/-- **Temporaries only share.**  In a graph without cycles, over nodes with a temporary that are
bound to their own full expressions every expression is written out in full; bound names stand in an
expression as they are.  The names of a program have expressions that were assigned to them, with
names replaced likewise, and for any such expressions `E` the following become what they are in full
when names are replaced: what is assigned to each temporary, the results of free roots, and the
results and tests of loops.  There is a program unless something that it is written with cannot be
written. -/
theorem program_shares (hg : g.Acyclic) (cap : Nat) :
    (∀ bound : Bound, BoundTo g (fullText g) bound →
      (∀ key, render g bound key = fullText g key) ∧
      ∀ id, assignment g bound id = fullText g (id, none)) ∧
    (∀ bound : Bound,
      (∀ key, ∃ segments : Except TooManyDigits (List Segment),
        render g bound key = segments.map (fill id) ∧
        ∀ σ, render g (replaceNames σ bound) key = segments.map (fill σ)) ∧
      ∀ node, ∃ segments : Except TooManyDigits (List Segment),
        assignment g bound node = segments.map (fill id) ∧
        ∀ σ, assignment g (replaceNames σ bound) node = segments.map (fill σ)) ∧
    (∀ p, program g cap = .ok p →
      (∃ E, p.Expands g E) ∧
      p.results.map RootCode.root = g.roots ∧
      ∀ E, p.Expands g E →
        (∀ a ∈ p.assignments,
          assignment g a.bound a.node = .ok a.expression ∧
          BoundTo g (fullText g) (replaceNames E a.bound) ∧
          assignment g (replaceNames E a.bound) a.node = fullText g (a.node, none)) ∧
        (∀ root expression, .direct root expression ∈ p.results →
          g.loopOf? root.node = none ∧
          render g p.freeBound (root.node, none) = .ok expression ∧
          BoundTo g (fullText g) (replaceNames E p.freeBound) ∧
          render g (replaceNames E p.freeBound) (root.node, none) = fullText g (root.node, none)) ∧
        ∀ b, .looped b ∈ p.results →
          g.loopOf? b.root.node = some b.loop ∧
          render g b.bound (b.root.node, none) = .ok b.result ∧
          ((g.inputEdge? b.loop (some "cont")).mapM fun e =>
            render g b.bound (e.source, e.sourceHandle)) = .ok b.continueTest ∧
          ((g.inputEdge? b.loop (some "brk")).mapM fun e =>
            render g b.bound (e.source, e.sourceHandle)) = .ok b.breakTest ∧
          BoundTo g (fullText g) (replaceNames E b.bound) ∧
          ∀ key, render g (replaceNames E b.bound) key = fullText g key) ∧
    (program g cap = .error ⟨⟩ → HasUnwritable g cap) := by
  have hfull : fullText g = g.expression :=
    funext fun key => fullText_eq_expression (hg.not_circular key.1)
  rw [hfull]
  refine ⟨fun bound hbound => ⟨render_eq_expression hg hbound, assignment_eq_expression hg hbound⟩,
    fun bound => ⟨fun key => ?_, fun node => ?_⟩, fun p h => ?_, hasUnwritable_of_program⟩
  · obtain ⟨segments, h⟩ := stretches_render hg bound key
    have hplain : render g (replaceNames id bound) key = segments.map (fill id) := h id
    rw [replaceNames_id] at hplain
    exact ⟨segments, hplain, h⟩
  · obtain ⟨segments, h⟩ := stretches_assignment hg bound node
    have hplain : assignment g (replaceNames id bound) node = segments.map (fill id) := h id
    rw [replaceNames_id] at hplain
    exact ⟨segments, hplain, h⟩
  have hp : IsProgram g p := isProgram h
  refine ⟨⟨_, hp.expands_meaning hg⟩, hp.results.map_root, fun E hE => ?_⟩
  have hexpanded := hp.expanded hg hE
  refine ⟨fun a ha => ?_, fun root expression hcode => ?_, fun b hcode => ?_⟩
  · have hbound := hexpanded.boundTo (hp.bound_subset ha)
    exact ⟨(hp.emitted.of_mem ha).1, hbound, assignment_eq_expression hg hbound a.node⟩
  · obtain ⟨hloop, htext⟩ := hp.direct hcode
    have hbound := hexpanded.boundTo (freeBound_subset p)
    exact ⟨hloop, htext, hbound, render_eq_expression hg hbound _⟩
  · obtain ⟨hloop, ⟨before, hblock⟩, hsubset⟩ := hp.looped hcode
    have hbound := hexpanded.boundTo hsubset
    exact ⟨hloop, hblock.result, hblock.continueTest, hblock.breakTest, hbound,
      render_eq_expression hg hbound⟩

/-- A sum that is used twice over, and once in a loop. -/
def shared : Graph where
  nodes := [⟨"price", none, .field "price" .number none⟩, ⟨"sum", none, .operator "add" none []⟩,
    ⟨"square", none, .operator "multiply" none []⟩,
    ⟨"yes", none, .const (.bool true) .boolean none⟩,
    ⟨"loop", none, .operator "while_loop" none []⟩, ⟨"out", none, .output "squared" .null⟩,
    ⟨"each", none, .output "each" .null⟩]
  edges := [⟨none, "price", none, "sum", some "a"⟩, ⟨none, "price", none, "sum", some "b"⟩,
    ⟨none, "sum", none, "square", some "a"⟩, ⟨none, "sum", none, "square", some "b"⟩,
    ⟨none, "square", none, "out", some "in"⟩, ⟨none, "yes", none, "loop", some "cond"⟩,
    ⟨none, "loop", some "body", "each", none⟩, ⟨none, "sum", none, "each", some "in"⟩]
  metadata := []

theorem program_shares_shared :
    shared.Acyclic ∧ ∃ p, program shared 10 = .ok p ∧
    p.assignments.map (·.name) = ["_add_1"] ∧
    ∃ E, p.Expands shared E ∧ ∀ a ∈ p.assignments,
      assignment shared (replaceNames E a.bound) a.node = fullText shared (a.node, none) := by
  have hg : shared.Acyclic := by decide
  have hnames : (program shared 10).map (fun p => p.assignments.map (·.name)) =
      .ok ["_add_1"] := by decide +kernel
  obtain ⟨p, hp, hassigned⟩ := map_eq_ok_iff.1 hnames
  obtain ⟨⟨E, hE⟩, -, expand⟩ := (program_shares hg 10).2.2.1 p hp
  exact ⟨hg, p, hp, hassigned, E, hE, fun a ha => ((expand E hE).1 a ha).2.2⟩

end NodeFlow.Code
