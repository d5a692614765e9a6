import NodeFlow.Proofs.Code.Lines
import NodeFlow.Proofs.Code.Sharing

/-!
# Names are defined before they are used

Lines are read in turn, each with the lines above it (`InTurn`).  A line is dominated by one above
it from which no line leads out to a lesser depth, so that it is only reached after that one was
carried out (`Dominated`).  Every name that a line is written over has such a line that defines it,
and on a pass of the loop that owns its node one that updates it (`program_defines`).
-/

open NodeFlow.Outcome

namespace NodeFlow.Code

/-! ### Lines in turn -/

/-- `Q` holds of each line with the lines above it. -/
def InTurn (Q : List Line → Line → Prop) : List Line → List Line → Prop
  | _, [] => True
  | above, line :: rest => Q above line ∧ InTurn Q (above ++ [line]) rest

/-- A line with `P` stands above, and neither what comes next nor a line between them is less
deep. -/
def Dominated (P : Line → Prop) (above : List Line) (depth : Nat) : Prop :=
  ∃ before l between, above = before ++ l :: between ∧ P l ∧ l.depth ≤ depth ∧
    ∀ m ∈ between, l.depth ≤ m.depth

variable {Q : List Line → Line → Prop} {P : Line → Prop} {above lines lines' : List Line}
  {line : Line} {depth depth' : Nat}

theorem inTurn_append :
    InTurn Q above (lines ++ lines') ↔ InTurn Q above lines ∧ InTurn Q (above ++ lines) lines' := by
  induction lines generalizing above with
  | nil => simp [InTurn]
  | cons l rest ih =>
    simp only [List.cons_append, InTurn, ih, and_assoc, List.append_assoc, List.nil_append]

theorem InTurn.of_append (h : InTurn Q [] (above ++ line :: lines)) : Q above line :=
  (inTurn_append.1 h).2.1

theorem Dominated.append (h : Dominated P above depth) (hlines : ∀ m ∈ lines, depth ≤ m.depth) :
    Dominated P (above ++ lines) depth := by
  obtain ⟨before, l, between, rfl, hl, hdepth, hbetween⟩ := h
  refine ⟨before, l, between ++ lines, by simp, hl, hdepth, ?_⟩
  exact List.forall_mem_append.2 ⟨hbetween, fun m hm => hdepth.trans (hlines m hm)⟩

theorem Dominated.mono (h : Dominated P above depth) (hdepth : depth ≤ depth') :
    Dominated P above depth' := by
  obtain ⟨before, l, between, hsplit, hl, hle, hbetween⟩ := h
  exact ⟨before, l, between, hsplit, hl, hle.trans hdepth, hbetween⟩

theorem dominated_of_mem (hmem : line ∈ lines) (hline : P line) (hdepth : line.depth ≤ depth)
    (hlines : ∀ m ∈ lines, line.depth ≤ m.depth) : Dominated P (above ++ lines) depth := by
  obtain ⟨before, after, rfl⟩ := List.append_of_mem hmem
  refine ⟨above ++ before, line, after, (List.append_assoc ..).symm, hline, hdepth, ?_⟩
  exact fun m hm => hlines m (List.mem_append_right before (List.mem_cons_of_mem line hm))

theorem dominated_last (hline : P line) (hdepth : line.depth ≤ depth) :
    Dominated P (above ++ [line]) depth :=
  ⟨above, line, [], rfl, hline, hdepth, List.forall_mem_nil _⟩

/-! ### Lines that define names -/

variable {g : Graph} {e : String × String} {known bound free : Bound} {region : Region}
  {as : List Assignment} {number : Nat} {loop : String} {p : Program}

/-- A line defines a name before all loops, or before the passes of the loop that owns the node. -/
structure Defines (g : Graph) (e : String × String) (l : Line) : Prop where
  depth_eq : l.depth = 1
  statement :
    (l.region = .free ∧ ∃ text, assignment g l.bound e.1 = .ok text ∧
      l.statement = .assign e.2 text) ∨
    ∃ number loop, l.region = .block number loop ∧ g.loopOf? e.1 = some loop ∧
      l.statement = .assign e.2 nothing

/-- A line in the block of a loop gives a name the value of its node on a pass. -/
structure Updates (g : Graph) (region : Region) (e : String × String) (l : Line) : Prop where
  depth_eq : l.depth = 2
  region_eq : l.region = region
  statement : ∃ text, assignment g l.bound e.1 = .ok text ∧ l.statement = .assign e.2 text

/-- A name is defined above a line of the given region and depth, and updated if the region is the
block of the loop that owns the node. -/
structure Available (g : Graph) (region : Region) (depth : Nat) (above : List Line)
    (e : String × String) : Prop where
  defined : Dominated (Defines g e) above depth
  updated : ∀ number loop, region = .block number loop → g.loopOf? e.1 = some loop →
    Dominated (Updates g region e) above depth

/-- The names that a line is written over are available. -/
def Ready (g : Graph) (above : List Line) (l : Line) : Prop :=
  ∀ e ∈ l.bound, Available g l.region l.depth above e

theorem Available.append (h : Available g region depth above e)
    (hlines : ∀ m ∈ lines, depth ≤ m.depth) : Available g region depth (above ++ lines) e where
  defined := h.defined.append hlines
  updated number loop hregion hloop := (h.updated number loop hregion hloop).append hlines

theorem Dominated.available (h : Dominated (Defines g e) above depth)
    (hregion : ∀ number loop, region ≠ .block number loop) : Available g region depth above e :=
  ⟨h, fun number loop heq => absurd heq (hregion number loop)⟩

/-- Lines are ready where all the names that they are written over were available before them. -/
theorem inTurn_of_available (hdepth : ∀ l ∈ lines, depth ≤ l.depth)
    (h : ∀ l ∈ lines, ∀ e ∈ l.bound, l.depth = depth ∧ Available g l.region depth above e) :
    InTurn (Ready g) above lines := by
  induction lines generalizing above with
  | nil => trivial
  | cons l rest ih =>
    obtain ⟨hl, hrest⟩ := List.forall_mem_cons.1 hdepth
    refine ⟨fun e he => ?_, ih hrest fun m hm e he => ?_⟩
    · obtain ⟨heq, havailable⟩ := h l List.mem_cons_self e he
      rw [heq]
      exact havailable
    · obtain ⟨heq, havailable⟩ := h m (List.mem_cons_of_mem l hm) e he
      exact ⟨heq, havailable.append (List.forall_mem_singleton.2 hl)⟩

theorem inTurn_of_unbound (h : ∀ l ∈ lines, l.bound = []) : InTurn (Ready g) above lines :=
  inTurn_of_available (fun _ _ => Nat.zero_le _) fun l hl e he => by
    rw [h l hl] at he
    cases he

/-- Along a chain each assignment makes one more name available. -/
theorem Chain.inTurn (h : Chain g bound as)
    (hbound : ∀ e ∈ bound, Available g region depth above e)
    (hnew : ∀ a ∈ as, assignment g a.bound a.node = .ok a.expression →
      ∀ lines, (∀ m ∈ lines, depth ≤ m.depth) →
        Available g region depth (above ++ lines ++ [a.layout depth region]) a.entry) :
    InTurn (Ready g) above (as.map (Assignment.layout depth region)) ∧
      ∀ e ∈ (as.map Assignment.entry).reverse ++ bound,
        Available g region depth (above ++ as.map (Assignment.layout depth region)) e := by
  induction as generalizing above bound with
  | nil => exact ⟨trivial, by simpa using hbound⟩
  | cons a rest ih =>
    obtain ⟨⟨rfl, ha⟩, hrest⟩ := h
    -- the lines that `hnew` allows before a line take in the first one for the rest of the chain
    have hline : ∀ m ∈ [a.layout depth region], depth ≤ m.depth := by simp [Assignment.layout]
    have hentry := hnew a List.mem_cons_self ha [] (List.forall_mem_nil _)
    rw [List.append_nil] at hentry
    have hnext : ∀ e ∈ a.entry :: a.bound,
        Available g region depth (above ++ [a.layout depth region]) e :=
      List.forall_mem_cons.2 ⟨hentry, fun e he => (hbound e he).append hline⟩
    obtain ⟨hturn, havailable⟩ := ih hrest hnext fun b hb hexpression lines hlines => by
      have := hnew b (List.mem_cons_of_mem a hb) hexpression ([a.layout depth region] ++ lines)
        (List.forall_mem_append.2 ⟨hline, hlines⟩)
      rwa [← List.append_assoc] at this
    refine ⟨⟨hbound, hturn⟩, fun e he => ?_⟩
    rw [List.map_cons, List.append_cons]
    refine havailable e ?_
    simpa using he

/-! ### The lines of a block -/

variable {b : LoopBlock} {a : Assignment} {root : Root} {consequence : List Statement}
  {test : Option String}

theorem forall_mem_testLayout : (∀ l ∈ testLayout region bound test consequence, P l) ↔
    ∀ text ∈ test, P ⟨2, region, .other ("if bool(" ++ text ++ "):"), bound⟩ ∧
      ∀ s ∈ consequence, P ⟨3, region, s, []⟩ := by
  cases test with
  | none => simp [testLayout]
  | some text => simp [testLayout]

theorem forall_mem_opening : (∀ l ∈ b.opening number, P l) ↔
    (∀ a ∈ b.body, P (a.initial (b.region number))) ∧
    P ⟨1, b.region number, .assign "_i" "0", []⟩ ∧
    P ⟨1, b.region number, .assign "_last" nothing, []⟩ ∧
    P ⟨1, b.region number,
      .other ("while (bool(" ++ b.condition ++ ")) and _i < int(" ++ b.cap ++ "):"), []⟩ := by
  simp only [LoopBlock.opening, List.forall_mem_append, List.forall_mem_map, List.forall_mem_cons,
    List.not_mem_nil, false_implies, implies_true, and_true]

theorem forall_mem_closing : (∀ l ∈ b.closing number, P l) ↔
    (∀ text ∈ b.continueTest,
      P ⟨2, b.region number, .other ("if bool(" ++ text ++ "):"), b.bound⟩ ∧
      P ⟨3, b.region number, .increment "_i", []⟩ ∧
      P ⟨3, b.region number, .other "continue", []⟩) ∧
    (∀ text ∈ b.breakTest,
      P ⟨2, b.region number, .other ("if bool(" ++ text ++ "):"), b.bound⟩ ∧
      P ⟨3, b.region number, .other "break", []⟩) ∧
    P ⟨2, b.region number, .assign "_val" b.result, b.bound⟩ ∧
    P ⟨2, b.region number, .other "if _val is not None:", []⟩ ∧
    P ⟨3, b.region number, .assign "_last" "_val", []⟩ ∧
    P ⟨2, b.region number, .increment "_i", []⟩ := by
  simp only [LoopBlock.closing, List.forall_mem_append, forall_mem_testLayout, List.forall_mem_cons,
    List.not_mem_nil, false_implies, implies_true, and_true, and_assoc]

theorem of_mem_opening (h : line ∈ b.opening number) : line.depth = 1 ∧ line.bound = [] := by
  revert line
  simp [forall_mem_opening, Assignment.initial]

theorem of_mem_passLayout (h : line ∈ b.passLayout number) : line.depth = 2 ∧ line.bound = [] := by
  revert line
  simp [LoopBlock.passLayout]

theorem of_mem_closing (h : line ∈ b.closing number) :
    2 ≤ line.depth ∧ ∀ e ∈ line.bound,
      line.depth = 2 ∧ line.region = b.region number ∧ e ∈ b.bound := by
  revert line
  simp [forall_mem_closing]

theorem getLast?_resultTarget (root : Root) : (resultTarget root).toList.getLast? = some ']' := by
  have hlast : "]".toList = [']'] := by decide
  rw [resultTarget, String.toList_append, hlast, List.getLast?_concat]

theorem endsInDigit_resultTarget (root : Root) : endsInDigit (resultTarget root) = false := by
  rw [endsInDigit, getLast?_resultTarget]
  rfl

/-- The statements that every block has, or may have, with the depths of their lines. -/
def blockFrame : List (Nat × Statement) := [
  (1, .assign "_i" "0"), (1, .assign "_last" nothing),
  (3, .increment "_i"), (3, .other "continue"), (3, .other "break"),
  (2, .other "if _val is not None:"), (3, .assign "_last" "_val"), (2, .increment "_i")]

/-- What a line of a block in a region can be. -/
inductive IsBlockLine (b : LoopBlock) (region : Region) : Line → Prop
  | frame {depth : Nat} {s : Statement} (hs : (depth, s) ∈ blockFrame) :
    IsBlockLine b region ⟨depth, region, s, []⟩
  | initial {a : Assignment} (ha : a ∈ b.body) : IsBlockLine b region (a.initial region)
  | head : IsBlockLine b region ⟨1, region,
      .other ("while (bool(" ++ b.condition ++ ")) and _i < int(" ++ b.cap ++ "):"), []⟩
  | passInput {text : String} (htext : text ∈ b.passInputs) :
    IsBlockLine b region ⟨2, region, .assign "_" text, []⟩
  | update {a : Assignment} (ha : a ∈ b.body) : IsBlockLine b region (a.layout 2 region)
  | test {text : String} (htext : text ∈ b.continueTest ∨ text ∈ b.breakTest) :
    IsBlockLine b region ⟨2, region, .other ("if bool(" ++ text ++ "):"), b.bound⟩
  | result : IsBlockLine b region ⟨2, region, .assign "_val" b.result, b.bound⟩
  | last : IsBlockLine b region ⟨1, region, .assign (resultTarget b.root) "_last", []⟩

theorem isBlockLine_of_mem (h : line ∈ b.layout number) :
    IsBlockLine b (b.region number) line := by
  revert line
  have opening : ∀ l ∈ b.opening number, IsBlockLine b (b.region number) l :=
    forall_mem_opening.2
      ⟨fun a ha => .initial ha, .frame (by decide), .frame (by decide), .head⟩
  have passLayout : ∀ l ∈ b.passLayout number, IsBlockLine b (b.region number) l :=
    List.forall_mem_map.2 fun text htext => .passInput htext
  have closing : ∀ l ∈ b.closing number, IsBlockLine b (b.region number) l :=
    forall_mem_closing.2
      ⟨fun text htext => ⟨.test (.inl htext), .frame (by decide), .frame (by decide)⟩,
        fun text htext => ⟨.test (.inr htext), .frame (by decide)⟩,
        .result, .frame (by decide), .frame (by decide), .frame (by decide)⟩
  simp only [LoopBlock.layout, List.forall_mem_append, List.forall_mem_map]
  exact ⟨⟨⟨⟨opening, passLayout⟩, fun a ha => .update ha⟩, closing⟩,
    List.forall_mem_singleton.2 .last⟩

theorem IsBlockLine.region_eq (h : IsBlockLine b region line) : line.region = region := by
  cases h <;> rfl

theorem depth_of_mem_layout (h : line ∈ b.layout number) : 1 ≤ line.depth := by
  have hframe : ∀ entry ∈ blockFrame, 1 ≤ entry.1 := by decide
  cases isBlockLine_of_mem h with
  | initial | head | passInput | update | test | result | last => exact Nat.le_add_left 1 _
  | frame hs => exact hframe _ hs

theorem of_mem_start (h : line ∈ b.opening number ++ b.passLayout number) :
    1 ≤ line.depth ∧ line.bound = [] := by
  rcases List.mem_append.1 h with h | h
  · obtain ⟨hdepth, hunbound⟩ := of_mem_opening h
    exact ⟨hdepth.ge, hunbound⟩
  · obtain ⟨hdepth, hunbound⟩ := of_mem_passLayout h
    exact ⟨hdepth ▸ Nat.le_succ 1, hunbound⟩

/-- The first lines of a block define the names that its passes update. -/
theorem IsLoopBlock.dominated_initial (h : IsLoopBlock g known root loop b) (ha : a ∈ b.body)
    (hmem : a.initial (b.region number) ∈ lines) (hlines : ∀ l ∈ lines, 1 ≤ l.depth) :
    Dominated (Defines g a.entry) (above ++ lines) 1 := by
  have hloop : g.loopOf? a.node = some b.loop := h.loop_eq ▸ (h.mem_body ha).1
  exact dominated_of_mem hmem ⟨rfl, .inr ⟨number, b.loop, rfl, hloop, rfl⟩⟩ le_rfl hlines

theorem Dominated.available_update (h : Dominated (Defines g a.entry) above 1)
    (hexpression : assignment g a.bound a.node = .ok a.expression)
    (hlines : ∀ m ∈ lines, 2 ≤ m.depth) :
    Available g region 2 (above ++ lines ++ [a.layout 2 region]) a.entry := by
  have hlast : ∀ m ∈ lines ++ [a.layout 2 region], 1 ≤ m.depth :=
    List.forall_mem_append.2 ⟨fun m hm => (Nat.le_succ 1).trans (hlines m hm),
      List.forall_mem_singleton.2 (Nat.le_succ 1)⟩
  constructor
  · rw [List.append_assoc]
    exact (h.append hlast).mono (Nat.le_succ 1)
  · intro _ _ _ _
    exact dominated_last ⟨rfl, rfl, a.expression, hexpression, rfl⟩ le_rfl

/-- The names that the lines of a block are written over are available to each of them. -/
theorem IsLoopBlock.inTurn (h : IsLoopBlock g known root loop b)
    (hknown : ∀ e ∈ known, Dominated (Defines g e) above 1) :
    InTurn (Ready g) above (b.layout number) ∧
      ∀ e ∈ b.body.map Assignment.entry ++ known,
        Dominated (Defines g e) (above ++ b.layout number) 1 := by
  obtain ⟨outer, houter, hchain, hbound⟩ := h.chain
  let start := b.opening number ++ b.passLayout number
  have hstart : ∀ l ∈ start, 1 ≤ l.depth := fun l hl => (of_mem_start hl).1
  -- the names from before the block are of nodes that its loop does not own
  have houter' : ∀ e ∈ outer, Available g (b.region number) 2 (above ++ start) e := by
    intro e he
    refine ⟨((hknown e (houter e he).1).append hstart).mono (Nat.le_succ 1), ?_⟩
    rintro _ _ heq hloop
    cases heq
    exact absurd (h.loop_eq ▸ hloop) (houter e he).2
  have hinitial : ∀ a ∈ b.body, Dominated (Defines g a.entry) (above ++ start) 1 := by
    intro a ha
    have hmem : a.initial (b.region number) ∈ start :=
      List.mem_append_left _ (List.mem_append_left _ (List.mem_map_of_mem ha))
    exact h.dominated_initial ha hmem hstart
  obtain ⟨hbody, havailable⟩ := hchain.inTurn houter' fun a ha hexpression lines =>
    (hinitial a ha).available_update hexpression
  rw [← hbound] at havailable
  constructor
  · rw [LoopBlock.layout]
    refine inTurn_append.2 ⟨inTurn_append.2 ⟨inTurn_append.2 ⟨?_, hbody⟩, ?_⟩, ?_⟩
    · exact inTurn_of_unbound fun l hl => (of_mem_start hl).2
    · rw [← List.append_assoc]
      refine inTurn_of_available (fun l hl => (of_mem_closing hl).1) fun l hl e he => ?_
      obtain ⟨hdepth, hregion, he'⟩ := (of_mem_closing hl).2 e he
      exact ⟨hdepth, hregion ▸ havailable e he'⟩
    · exact inTurn_of_unbound (by simp)
  · intro e he
    rcases List.mem_append.1 he with he | he
    · obtain ⟨a, ha, rfl⟩ := List.mem_map.1 he
      have hmem : a.initial (b.region number) ∈ b.layout number := by
        simp only [LoopBlock.layout, LoopBlock.opening, List.append_assoc]
        exact List.mem_append_left _ (List.mem_map_of_mem ha)
      exact h.dominated_initial ha hmem fun l hl => depth_of_mem_layout hl
    · exact (hknown e he).append fun l hl => depth_of_mem_layout hl

/-! ### The lines of a program -/

variable {roots : List Root} {codes : List RootCode}

theorem RootsEmitted.inTurn (h : RootsEmitted g free known roots codes) (hfree : free ⊆ known)
    (hknown : ∀ e ∈ known, Dominated (Defines g e) above 1) :
    InTurn (Ready g) above (rootsLayout free number codes) := by
  induction roots generalizing known codes above number with
  | nil =>
    obtain rfl := h
    trivial
  | cons root rest ih =>
    obtain ⟨code, others, rfl, hcode, hothers⟩ := h
    have hfree' : free ⊆ code.body.map Assignment.entry ++ known :=
      fun e he => List.mem_append_right _ (hfree he)
    have hcode' : InTurn (Ready g) above (code.layout free number) ∧
        ∀ e ∈ code.body.map Assignment.entry ++ known,
          Dominated (Defines g e) (above ++ code.layout free number) 1 := by
      rw [IsRootCode] at hcode
      split at hcode
      · obtain ⟨text, rfl, -⟩ := hcode
        refine ⟨⟨fun e he => (hknown e (hfree he)).available (by simp), trivial⟩, fun e he => ?_⟩
        exact (hknown e he).append (List.forall_mem_singleton.2 le_rfl)
      · obtain ⟨b, rfl, hb⟩ := hcode
        exact hb.inTurn hknown
    exact inTurn_append.2 ⟨hcode'.1, ih hothers hfree' hcode'.2⟩

theorem IsProgram.inTurn (h : IsProgram g p) : InTurn (Ready g) [] p.layout := by
  rw [Program.layout]
  split
  · exact inTurn_of_unbound (by simp)
  · have hnew (above : List Line) : ∀ a ∈ p.free, assignment g a.bound a.node = .ok a.expression →
        ∀ lines, (∀ m ∈ lines, 1 ≤ m.depth) →
          Available g .free 1 (above ++ lines ++ [a.layout 1 .free]) a.entry := by
      intro a _ hexpression lines _
      refine Dominated.available (dominated_last ⟨rfl, .inl ⟨rfl, ?_⟩⟩ le_rfl) (by simp)
      exact ⟨a.expression, hexpression, rfl⟩
    obtain ⟨hfree, havailable⟩ := h.chain.inTurn (List.forall_mem_nil _) (hnew _)
    rw [List.append_nil] at havailable
    refine inTurn_append.2 ⟨inTurn_append.2 ⟨inTurn_append.2 ⟨?_, hfree⟩, ?_⟩, ?_⟩
    · exact inTurn_of_unbound (by simp)
    · refine h.results.inTurn (fun e he => List.mem_reverse.1 he) fun e he => ?_
      exact (havailable e (List.mem_reverse.2 he)).defined
    · exact inTurn_of_unbound (by simp)

/-! ### What each line is -/

/-- The statements that every function has, or may have, below its first line. -/
def functionFrame : List Statement := [
  .assign "vars" "\x7b\x7d", .assign "results" "\x7b\x7d", .other "return results",
  .other "# No outputs; add an Output node and connect it.", .other "return \x7b\x7d"]

/-- What stands on a line of a program.  The expressions on it are those of the graph, written over
the names that are bound there. -/
inductive IsWritten (g : Graph) (p : Program) : Line → Prop
  | frame {s : Statement} (hs : s ∈ functionFrame) : IsWritten g p ⟨1, .frame, s, []⟩
  | free {a : Assignment} (ha : a ∈ p.free)
    (hexpression : assignment g a.bound a.node = .ok a.expression) :
    IsWritten g p ⟨1, .free, .assign a.name a.expression, a.bound⟩
  | direct {root : Root} {text : String} (hroot : root ∈ g.roots)
    (htext : render g p.freeBound (root.node, none) = .ok text) :
    IsWritten g p ⟨1, .result, .assign (resultTarget root) text, p.freeBound⟩
  | inBlock {number : Nat} {loop : String} {depth : Nat} {s : Statement}
    (hs : (depth, s) ∈ blockFrame) : IsWritten g p ⟨depth, .block number loop, s, []⟩
  | initial {number : Nat} {loop : String} {a : Assignment} (ha : a ∈ p.assignments)
    (hloop : g.loopOf? a.node = some loop) :
    IsWritten g p ⟨1, .block number loop, .assign a.name nothing, []⟩
  | head {number : Nat} {loop condition cap : String} {limit : Nat}
    (hcondition : IsInput g "False" (g.inputEdge? loop (some "cond")) condition)
    (hcap : IsInput g (toString limit) (g.inputEdge? loop (some "max")) cap) :
    IsWritten g p ⟨1, .block number loop,
      .other ("while (bool(" ++ condition ++ ")) and _i < int(" ++ cap ++ "):"), []⟩
  | passInput {number : Nat} {loop handle text : String} (hhandle : handle ∈ passHandles g loop)
    (htext : IsInput g "" (g.inputEdge? loop (some handle)) text) :
    IsWritten g p ⟨2, .block number loop, .assign "_" text, []⟩
  | update {number : Nat} {loop : String} {a : Assignment} (ha : a ∈ p.assignments)
    (hloop : g.loopOf? a.node = some loop)
    (hexpression : assignment g a.bound a.node = .ok a.expression) :
    IsWritten g p ⟨2, .block number loop, .assign a.name a.expression, a.bound⟩
  | test {number : Nat} {loop handle text : String} {bound : Bound} {e : Edge}
    (hhandle : handle = "cont" ∨ handle = "brk")
    (he : g.inputEdge? loop (some handle) = some e)
    (htext : render g bound (e.source, e.sourceHandle) = .ok text) :
    IsWritten g p ⟨2, .block number loop, .other ("if bool(" ++ text ++ "):"), bound⟩
  | result {number : Nat} {loop text : String} {bound : Bound} {root : Root}
    (hroot : root ∈ g.roots) (hloop : g.loopOf? root.node = some loop)
    (htext : render g bound (root.node, none) = .ok text) :
    IsWritten g p ⟨2, .block number loop, .assign "_val" text, bound⟩
  | last {number : Nat} {loop : String} {root : Root} (hroot : root ∈ g.roots)
    (hloop : g.loopOf? root.node = some loop) :
    IsWritten g p ⟨1, .block number loop, .assign (resultTarget root) "_last", []⟩

theorem IsTest.exists_edge {e : Option Edge} (h : IsTest g bound e test) {text : String}
    (htext : text ∈ test) :
    ∃ e' ∈ e, render g bound (e'.source, e'.sourceHandle) = .ok text := by
  cases e with
  | none =>
    obtain rfl := Except.ok.inj h
    cases htext
  | some e =>
    obtain ⟨text', htext', rfl⟩ := map_eq_ok_iff.1 h
    obtain rfl := Option.some.inj htext
    exact ⟨e, rfl, htext'⟩

theorem mem_rootsLayout (h : line ∈ rootsLayout free number codes) :
    ∃ (k : Nat) (code : RootCode), codes[k]? = some code ∧
      line ∈ code.layout free (number + k) := by
  induction codes generalizing number with
  | nil => cases h
  | cons code rest ih =>
    rcases List.mem_append.1 h with h | h
    · exact ⟨0, code, rfl, h⟩
    · obtain ⟨k, code, hcode, hline⟩ := ih h
      refine ⟨k + 1, code, hcode, ?_⟩
      rwa [Nat.add_comm k 1, ← Nat.add_assoc]

/-- What a line of a program can be. -/
inductive IsLine (p : Program) : Line → Prop
  | frame {s : Statement} (hs : s ∈ functionFrame) : IsLine p ⟨1, .frame, s, []⟩
  | free {a : Assignment} (ha : a ∈ p.free) : IsLine p (a.layout 1 .free)
  | direct {number : Nat} {root : Root} {expression : String}
    (hcode : p.results[number]? = some (.direct root expression)) :
    IsLine p ⟨1, .result, .assign (resultTarget root) expression, p.freeBound⟩
  | block {number : Nat} {b : LoopBlock} {line : Line}
    (hcode : p.results[number]? = some (.looped b))
    (hline : IsBlockLine b (b.region number) line) : IsLine p line

theorem isLine_of_mem_rootsLayout (h : line ∈ rootsLayout p.freeBound 0 p.results) :
    IsLine p line := by
  obtain ⟨number, code, hcode, hline⟩ := mem_rootsLayout h
  rw [Nat.zero_add] at hline
  cases code with
  | direct root expression =>
    obtain rfl := List.mem_singleton.1 hline
    exact .direct hcode
  | looped b => exact .block hcode (isBlockLine_of_mem hline)

theorem isLine_of_mem (h : line ∈ p.layout) : IsLine p line := by
  revert line
  rw [Program.layout]
  split
  · simp only [List.forall_mem_cons]
    exact ⟨.frame (by decide), .frame (by decide), List.forall_mem_nil _⟩
  · simp only [List.forall_mem_append, List.forall_mem_cons, List.forall_mem_map]
    exact ⟨⟨⟨⟨.frame (by decide), .frame (by decide), List.forall_mem_nil _⟩,
      fun a ha => .free ha⟩, fun line => isLine_of_mem_rootsLayout⟩, .frame (by decide),
      List.forall_mem_nil _⟩

/-! ### Names of a program -/

theorem mem_assignments (hcode : .looped b ∈ p.results) (ha : a ∈ b.body) : a ∈ p.assignments :=
  List.mem_append_right _ (List.mem_flatMap.2 ⟨.looped b, hcode, ha⟩)

theorem IsProgram.endsInDigit_name (h : IsProgram g p) (ha : a ∈ p.assignments) :
    endsInDigit a.name = true := by
  obtain ⟨t, -, ht⟩ := h.temporaries a ha
  rw [← ht]
  exact t.endsInDigit_text

theorem IsProgram.ne_name (h : IsProgram g p) (ha : a ∈ p.assignments) {name : String}
    (hname : endsInDigit name = false) : name ≠ a.name := by
  rintro rfl
  rw [h.endsInDigit_name ha] at hname
  cases hname

theorem IsProgram.isWritten (h : IsProgram g p) (hline : IsLine p line) :
    IsWritten g p line := by
  cases hline with
  | frame hs => exact .frame hs
  | free ha => exact .free ha (h.free.of_mem ha).1
  | direct hcode =>
    have hmem := List.mem_of_getElem? hcode
    exact .direct (h.root_mem hmem) (h.direct hmem).2
  | @block number b _ hcode hline =>
    have hmem := List.mem_of_getElem? hcode
    obtain ⟨hloop, ⟨before, hb⟩, -⟩ := h.looped hmem
    have hroot : b.root ∈ g.roots := h.root_mem hmem
    have written (handle : String) (hhandle : handle = "cont" ∨ handle = "brk")
        {test : Option String} (htest : IsTest g b.bound (g.inputEdge? b.loop (some handle)) test)
        {text : String} (htext : text ∈ test) : IsWritten g p
          ⟨2, .block number b.loop, .other ("if bool(" ++ text ++ "):"), b.bound⟩ := by
      obtain ⟨e, he, hrender⟩ := htest.exists_edge htext
      exact .test hhandle he hrender
    cases hline with
    | frame hs => exact .inBlock hs
    | initial ha => exact .initial (mem_assignments hmem ha) (hb.mem_body ha).1
    | head =>
      obtain ⟨limit, hcap⟩ := hb.cap
      exact .head hb.condition hcap
    | passInput htext =>
      obtain ⟨handle, hhandle, hinput⟩ := hb.passInputs _ htext
      exact .passInput hhandle hinput
    | update ha =>
      exact .update (mem_assignments hmem ha) (hb.mem_body ha).1 (hb.body.of_mem ha).1
    | test htext =>
      rcases htext with htext | htext
      · exact written "cont" (.inl rfl) hb.continueTest htext
      · exact written "brk" (.inr rfl) hb.breakTest htext
    | result => exact .result hroot hloop hb.result
    | last => exact .last hroot hloop

theorem IsProgram.line_bound_subset (h : IsProgram g p) (hline : IsLine p line) :
    line.bound ⊆ p.assignments.map Assignment.entry := by
  cases hline with
  | frame => exact List.nil_subset _
  | free ha => exact h.bound_subset (List.mem_append_left _ ha)
  | direct => exact freeBound_subset p
  | block hcode hline =>
    have hmem := List.mem_of_getElem? hcode
    cases hline with
    | frame | initial | head | passInput | last => exact List.nil_subset _
    | update ha => exact h.bound_subset (mem_assignments hmem ha)
    | test | result => exact (h.looped hmem).2.2

theorem IsProgram.mem_free_iff (h : IsProgram g p) (ha : a ∈ p.assignments) :
    a ∈ p.free ↔ g.loopOf? a.node = none := by
  refine ⟨fun hfree => (h.mem_free hfree).1, fun hnone => ?_⟩
  rcases List.mem_append.1 ha with hfree | hbody
  · exact hfree
  · obtain ⟨code, hcode, ha⟩ := List.mem_flatMap.1 hbody
    cases code with
    | direct => cases ha
    | looped b =>
      obtain ⟨-, ⟨before, hb⟩, -⟩ := h.looped hcode
      rw [(hb.mem_body ha).1] at hnone
      cases hnone

theorem IsBlockLine.target (h : IsBlockLine b region line) {name : String}
    (htarget : line.statement.target? = some name) (hname : endsInDigit name = true) :
    ∃ a ∈ b.body, a.name = name := by
  have hframe : ∀ entry ∈ blockFrame, entry.2.target?.all (!endsInDigit ·) = true := by decide
  cases h with
  | initial ha | update ha => exact ⟨_, ha, Option.some.inj htarget⟩
  | head | test => cases htarget
  | passInput | result =>
    obtain rfl := Option.some.inj htarget
    exact absurd hname (by decide)
  | last =>
    obtain rfl := Option.some.inj htarget
    rw [endsInDigit_resultTarget] at hname
    cases hname
  | @frame depth s hs =>
    have hplain := hframe (depth, s) hs
    rw [htarget, Option.all_some, hname] at hplain
    cases hplain

/-- The block of a loop assigns only temporaries of nodes that the loop owns. -/
theorem IsProgram.loopOf?_of_target (h : IsProgram g p) (hcode : .looped b ∈ p.results)
    (hline : IsBlockLine b region line) (ha : a ∈ p.assignments)
    (htarget : line.statement.target? = some a.name) : g.loopOf? a.node = some b.loop := by
  obtain ⟨a', ha', hname⟩ := hline.target htarget (h.endsInDigit_name ha)
  obtain ⟨-, ⟨before, hb⟩, -⟩ := h.looped hcode
  rw [← (h.names a' (mem_assignments hcode ha') a ha).1 hname]
  exact (hb.mem_body ha').1

theorem filter_node (hnodup : (as.map (·.node)).Nodup) (ha : a ∈ as) :
    as.filter (·.node == a.node) = [a] := by
  have heq : ∀ b ∈ as, (b.node == a.node) = (b == a) := by
    intro b hb
    rw [Bool.eq_iff_iff, beq_iff_eq, beq_iff_eq]
    exact ⟨List.inj_on_of_nodup_map hnodup hb ha, congrArg _⟩
  rw [List.filter_congr heq, List.filter_beq, List.count_eq_one_of_mem hnodup.of_map ha]
  rfl

/-- Among assignments of different nodes each has a name of its own. -/
theorem IsProgram.filter_name (h : IsProgram g p) (has : ∀ b ∈ as, b ∈ p.assignments)
    (hnodup : (as.map (·.node)).Nodup) (ha : a ∈ as) : as.filter (·.name == a.name) = [a] := by
  have heq : ∀ b ∈ as, (b.name == a.name) = (b.node == a.node) := fun b hb =>
    Bool.eq_iff_iff.2 (by simpa using h.names b (has b hb) a (has a ha))
  rw [List.filter_congr heq]
  exact filter_node hnodup ha

/-- The only line that assigns a free temporary is its own. -/
theorem IsProgram.filter_layout (h : IsProgram g p) (ha : a ∈ p.free) :
    p.layout.filter (·.statement.target? == some a.name) =
      if p.results.isEmpty then [] else [a.layout 1 .free] := by
  have ha' : a ∈ p.assignments := List.mem_append_left _ ha
  have hroots : ∀ l ∈ rootsLayout p.freeBound 0 p.results,
      ¬ (l.statement.target? == some a.name) = true := by
    intro l hl htarget
    obtain ⟨number, code, hcode, hl⟩ := mem_rootsLayout hl
    have htarget := eq_of_beq htarget
    cases code with
    | direct root expression =>
      obtain rfl := List.mem_singleton.1 hl
      exact h.ne_name ha' (endsInDigit_resultTarget root) (Option.some.inj htarget)
    | looped b =>
      have hloop := h.loopOf?_of_target (List.mem_of_getElem? hcode) (isBlockLine_of_mem hl) ha'
        htarget
      rw [(h.mem_free ha).1] at hloop
      cases hloop
  have hvars : "vars" ≠ a.name := h.ne_name ha' (by decide)
  have hresults : "results" ≠ a.name := h.ne_name ha' (by decide)
  rw [Program.layout]
  split
  · rfl
  · rw [List.filter_append, List.filter_append, List.filter_append,
      List.filter_eq_nil_iff.2 hroots, List.filter_map]
    have hfree : p.free.filter ((fun l : Line => l.statement.target? == some a.name) ∘
        Assignment.layout 1 .free) = [a] :=
      h.filter_name (fun b => List.mem_append_left _) h.nodes_nodup ha
    rw [hfree]
    simp [Statement.target?, hvars, hresults]

/-- **Names are defined before they are used.**  The code of a graph is a header and the lines of
its program.  Each of these is written over names of temporaries, and every such name is defined on
a line that dominates it: in the free region, or with `None` before the passes of the loop that owns
the node.  In a block of that loop it is updated on a line of the block that dominates it as well.
A block assigns no temporaries but those of nodes that its loop owns, and a free temporary is
assigned on one line only.  Without a program, as something that it is written with cannot be
written, the code is one that uses no names at all. -/
theorem program_defines (g : Graph) (cap : Nat) :
    (∀ p, program g cap = .ok p →
      generate g cap = joinLines (header g ++ functionLine :: p.layout.map Line.text) ∧
      (∀ line ∈ p.layout,
        IsWritten g p line ∧ line.bound ⊆ p.assignments.map Assignment.entry) ∧
      (∀ above line below, p.layout = above ++ line :: below → ∀ e ∈ line.bound,
        Dominated (Defines g e) above line.depth ∧
        ∀ number loop, line.region = .block number loop → g.loopOf? e.1 = some loop →
          Dominated (Updates g line.region e) above line.depth) ∧
      (∀ line ∈ p.layout, ∀ number loop, line.region = .block number loop →
        (∃ root, g.roots[number]? = some root ∧ g.loopOf? root.node = some loop) ∧
        ∀ a ∈ p.assignments, line.statement.target? = some a.name →
          g.loopOf? a.node = some loop) ∧
      (∀ a ∈ p.assignments, a ∈ p.free ↔ g.loopOf? a.node = none) ∧
      ∀ a ∈ p.free, p.layout.filter (·.statement.target? == some a.name) =
        if p.results.isEmpty then [] else [a.layout 1 .free]) ∧
    (program g cap = .error ⟨⟩ → HasUnwritable g cap ∧ generate g cap = fallback) := by
  refine ⟨fun p h => ?_, fun h => ⟨hasUnwritable_of_program h, generate_of_error h⟩⟩
  have hp : IsProgram g p := isProgram h
  refine ⟨generate_of_program h, fun line hline => ?_, fun above line below hsplit e he => ?_,
    fun line hline number loop hregion => ?_, fun a => hp.mem_free_iff, fun a => hp.filter_layout⟩
  · exact ⟨hp.isWritten (isLine_of_mem hline), hp.line_bound_subset (isLine_of_mem hline)⟩
  · have hturn := hp.inTurn
    rw [hsplit] at hturn
    obtain ⟨defined, updated⟩ := hturn.of_append e he
    exact ⟨defined, updated⟩
  · cases isLine_of_mem hline with
    | @block number' b _ hcode hblock =>
      have hmem := List.mem_of_getElem? hcode
      have heq : b.region number' = .block number loop := hblock.region_eq ▸ hregion
      cases heq
      refine ⟨⟨b.root, ?_, (hp.looped hmem).1⟩, fun a ha => hp.loopOf?_of_target hmem hblock ha⟩
      rw [← hp.results.map_root, List.getElem?_map, hcode]
      rfl
    | frame | free | direct => cases hregion

end NodeFlow.Code
