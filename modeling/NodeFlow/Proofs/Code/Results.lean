import NodeFlow.Graph.Report
import NodeFlow.Proofs.Code.Definition
import NodeFlow.Proofs.Graph.Labels
import NodeFlow.Proofs.Text.Quoted

/-!
# Lines that give results

The lines of a program give each root its result once, in the order of the roots and below all free
temporaries.  The places of the results differ as the labels of the roots do, so a result is lost
exactly if the labels of two outputs clash (`results_kept`).
-/

namespace NodeFlow.Code

variable {g : Graph} {p : Program} {a : Assignment} {b : LoopBlock} {region : Region}
  {depth number : Nat} {free known : Bound} {roots : List Root} {codes : List RootCode}
  {code : RootCode}

/-! ### Places of results -/

theorem resultTarget_inj {root root' : Root} :
    resultTarget root = resultTarget root' ↔ root.label = root'.label := by
  rw [resultTarget, resultTarget, String.append_left_inj, String.append_right_inj, Text.quote_inj]

/-- The places of results differ as labels do. -/
theorem nodup_map_resultTarget (roots : List Root) :
    (roots.map resultTarget).Nodup ↔ (roots.map (·.label)).Nodup := by
  simp only [List.nodup_iff_pairwise_ne, List.pairwise_map, ne_eq, resultTarget_inj]

/-- Whether what is assigned to is an entry of a table, as the places of results are.  All else that
a program assigns to is a variable. -/
def isEntry (target : String) : Bool := target.toList.getLast? == some ']'

theorem isEntry_resultTarget (root : Root) : isEntry (resultTarget root) = true := by
  rw [isEntry, getLast?_resultTarget]
  rfl

theorem isEntry_of_endsInDigit {name : String} (h : endsInDigit name = true) :
    isEntry name = false := by
  rw [endsInDigit] at h
  rw [isEntry]
  cases hlast : name.toList.getLast? with
  | none => rfl
  | some c =>
    rw [hlast, Option.any_some] at h
    refine beq_eq_false_iff_ne.2 fun heq => ?_
    obtain rfl := Option.some.inj heq
    exact absurd h (by decide)

/-! ### Lines -/

/-- Whether a line gives a result. -/
def Line.givesResult (l : Line) : Bool := l.statement.target?.any isEntry

/-- Where a line assigns: how deep it is, and to what. -/
def Line.place (l : Line) : Nat × Option String := (l.depth, l.statement.target?)

theorem givesResult_assign (target expression : String) :
    Line.givesResult ⟨depth, region, .assign target expression, known⟩ = isEntry target := rfl

theorem givesResult_increment (target : String) :
    Line.givesResult ⟨depth, region, .increment target, known⟩ = isEntry target := rfl

theorem givesResult_other (text : String) :
    Line.givesResult ⟨depth, region, .other text, known⟩ = false := rfl

theorem givesResult_resultTarget (root : Root) (expression : String) :
    Line.givesResult ⟨depth, region, .assign (resultTarget root) expression, known⟩ = true := by
  rw [givesResult_assign, isEntry_resultTarget]

/-- Of the lines of a block only the last one gives a result. -/
theorem LoopBlock.filter_layout (h : ∀ a ∈ b.body, endsInDigit a.name = true) :
    (b.layout number).filter Line.givesResult =
      [⟨1, b.region number, .assign (resultTarget b.root) "_last", []⟩] := by
  have none (lines : List Line) (h : ∀ l ∈ lines, l.givesResult = false) :
      lines.filter Line.givesResult = [] :=
    List.filter_eq_nil_iff.2 fun l hl => by simp [h l hl]
  have names : ∀ a ∈ b.body, isEntry a.name = false := fun a ha => isEntry_of_endsInDigit (h a ha)
  have plain : isEntry "_" = false ∧ isEntry "_i" = false ∧ isEntry "_last" = false ∧
      isEntry "_val" = false := by decide
  obtain ⟨blank, count, last, value⟩ := plain
  have opening : ∀ l ∈ b.opening number, l.givesResult = false := by
    simp only [forall_mem_opening, Assignment.initial, givesResult_assign, givesResult_other, count,
      last, and_true]
    exact names
  have passLayout : ∀ l ∈ b.passLayout number, l.givesResult = false := by
    simp only [LoopBlock.passLayout, List.forall_mem_map, givesResult_assign, blank, implies_true]
  have body : ∀ l ∈ b.body.map (Assignment.layout 2 (b.region number)), l.givesResult = false := by
    simpa only [List.forall_mem_map, Assignment.layout, givesResult_assign] using names
  have closing : ∀ l ∈ b.closing number, l.givesResult = false := by
    simp only [forall_mem_closing, givesResult_assign, givesResult_increment, givesResult_other,
      value, last, count, and_true, implies_true]
  rw [layout, List.filter_append, List.filter_append, List.filter_append, List.filter_append,
    none _ opening, none _ passLayout, none _ body, none _ closing, List.nil_append,
    List.nil_append, List.nil_append, List.nil_append,
    List.filter_cons_of_pos (givesResult_resultTarget b.root "_last"), List.filter_nil]

theorem RootCode.place_filter_layout (h : ∀ a ∈ code.body, endsInDigit a.name = true) :
    ((code.layout free number).filter Line.givesResult).map Line.place =
      [(1, some (resultTarget code.root))] := by
  cases code with
  | direct root expression =>
    rw [layout, List.filter_cons_of_pos (givesResult_resultTarget root expression)]
    rfl
  | looped block =>
    rw [layout, LoopBlock.filter_layout h]
    rfl

theorem place_filter_rootsLayout
    (h : ∀ a ∈ codes.flatMap RootCode.body, endsInDigit a.name = true) :
    ((rootsLayout free number codes).filter Line.givesResult).map Line.place =
      (codes.map RootCode.root).map fun root => (1, some (resultTarget root)) := by
  induction codes generalizing number with
  | nil => rfl
  | cons code rest ih =>
    rw [List.flatMap_cons, List.forall_mem_append] at h
    rw [rootsLayout, List.filter_append, List.map_append, code.place_filter_layout h.1, ih h.2]
    rfl

/-- Above the lines of the roots no line gives a result. -/
theorem IsProgram.givesResult_above (h : IsProgram g p) :
    ∀ l ∈ [⟨1, .frame, .assign "vars" "\x7b\x7d", []⟩,
      ⟨1, .frame, .assign "results" "\x7b\x7d", []⟩] ++ p.free.map (Assignment.layout 1 .free),
      l.givesResult = false := by
  simp only [List.forall_mem_append, List.forall_mem_cons, List.forall_mem_map]
  refine ⟨⟨by decide, by decide, List.forall_mem_nil _⟩, fun a ha => ?_⟩
  exact isEntry_of_endsInDigit (h.endsInDigit_name (List.mem_append_left _ ha))

/-- The lines that give results give them to the roots, in order. -/
theorem IsProgram.place_filter_layout (h : IsProgram g p) :
    (p.layout.filter Line.givesResult).map Line.place =
      g.roots.map fun root => (1, some (resultTarget root)) := by
  have roots : ((rootsLayout p.freeBound 0 p.results).filter Line.givesResult).map Line.place =
      g.roots.map fun root => (1, some (resultTarget root)) := by
    rw [← h.results.map_root]
    refine place_filter_rootsLayout fun a ha => ?_
    exact h.endsInDigit_name (List.mem_append_right p.free ha)
  have final : [(⟨1, .frame, .other "return results", []⟩ : Line)].filter Line.givesResult = [] :=
    rfl
  rw [Program.layout]
  split
  · next hempty =>
    rw [← roots, List.isEmpty_iff.1 hempty]
    rfl
  · rw [List.filter_append, List.filter_append, final, List.append_nil,
      List.filter_eq_nil_iff.2 fun l hl => Bool.eq_false_iff.1 (h.givesResult_above l hl)]
    exact roots

theorem region_of_mem_rootsLayout {l : Line} (h : l ∈ rootsLayout free number codes) :
    l.region ≠ .free := by
  obtain ⟨k, code, -, hl⟩ := mem_rootsLayout h
  cases code with
  | direct root expression =>
    obtain rfl := List.mem_singleton.1 hl
    nofun
  | looped block =>
    rw [(isBlockLine_of_mem hl).region_eq]
    nofun

/-- No free temporary is assigned below a line that gives a result. -/
theorem IsProgram.layout_pairwise (h : IsProgram g p) :
    p.layout.Pairwise fun l m => l.givesResult = true → m.region ≠ .free := by
  have framed : Region.frame ≠ .free := by rintro ⟨⟩
  have below : ∀ l ∈ rootsLayout p.freeBound 0 p.results ++
      [⟨1, .frame, .other "return results", []⟩], l.region ≠ .free :=
    List.forall_mem_append.2 ⟨fun l => region_of_mem_rootsLayout,
      List.forall_mem_singleton.2 framed⟩
  rw [Program.layout]
  split
  · exact List.pairwise_pair.2 fun _ => framed
  · rw [List.append_assoc]
    refine List.pairwise_append.2 ⟨?_, ?_, fun l _ m hm _ => below m hm⟩
    · refine List.pairwise_of_forall_mem_list fun l hl m _ hresult => ?_
      rw [h.givesResult_above l hl] at hresult
      cases hresult
    · exact List.pairwise_of_forall_mem_list fun l _ m hm _ => below m hm

/-- **Each root gets its result on a line of its own.**  The lines of the generated code that assign
to an entry of a table are as many as there are roots.  They stand in the order of the roots, below
all lines of free temporaries and outside of all loops, and each assigns to the place that the label
of its root names.  Only where something that the program is written with cannot be written, the code
is one that gives no results.  The places differ, so that no result is lost, exactly if no two
outputs have labels that clash; they always do where a graph has no outputs. -/
theorem results_kept (g : Graph) (cap : Nat) :
    (∀ p, program g cap = .ok p →
      generate g cap = joinLines (header g ++ functionLine :: p.layout.map Line.text) ∧
      (p.layout.filter Line.givesResult).map Line.place =
        g.roots.map (fun root => (1, some (resultTarget root))) ∧
      p.layout.Pairwise fun l m => l.givesResult = true → m.region ≠ .free) ∧
    (¬ HasUnwritable g cap → ∃ p, program g cap = .ok p) ∧
    (program g cap = .error ⟨⟩ → generate g cap = fallback) ∧
    ((g.roots.map resultTarget).Nodup ↔ ¬ Clash g.outputLabels) := by
  refine ⟨fun p h => ?_, exists_program, generate_of_error, ?_⟩
  · have hp : IsProgram g p := isProgram h
    exact ⟨generate_of_program h, hp.place_filter_layout, hp.layout_pairwise⟩
  · rw [nodup_map_resultTarget, Graph.labels_nodup_iff]

/-- Two constants, each with an output that keeps the label that outputs have at first. -/
def twins : Graph where
  nodes := [⟨"one", none, .const (.int 1) .number none⟩,
    ⟨"two", none, .const (.int 2) .number none⟩,
    ⟨"first", none, .output defaultOutputLabel .null⟩,
    ⟨"second", none, .output defaultOutputLabel .null⟩]
  edges := [⟨none, "one", none, "first", some "in"⟩, ⟨none, "two", none, "second", some "in"⟩]
  metadata := []

/-- The second result takes the place of the first. -/
theorem twins_lose_result :
    twins.isSound = true ∧ twins.roots.map (·.node) = ["first", "second"] ∧
    (program twins 10).map Program.lines = .ok [functionLine, "    vars = \x7b\x7d",
      "    results = \x7b\x7d", "    results['Result'] = 1", "    results['Result'] = 2",
      "    return results"] ∧
    twins.roots.map resultTarget = ["results['Result']", "results['Result']"] := by
  decide +kernel

end NodeFlow.Code
