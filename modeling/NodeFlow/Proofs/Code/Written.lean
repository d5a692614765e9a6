import NodeFlow.Code.Expression
import NodeFlow.Proofs.Graph.Origin
import NodeFlow.Proofs.Graph.Unfolding
import NodeFlow.Proofs.Operator.Template
import NodeFlow.Proofs.Value.Source

/-!
# Unfoldings written out

The expression for an output of a node is what its unfolding amounts to as code
(`Graph.expression`): the templates of the operators, with the expressions of what comes in filled
into them.  There is none exactly if a constant of the unfolding cannot be written
(`Graph.expression_eq_error_iff`).  The expression is on one line (`Graph.Unfolds.oneLine_text`), so
no mark of a cycle stands in it.
-/

namespace NodeFlow

open Text Code Outcome Relation

namespace Code

/-- The output that an edge asks for. -/
def wanted (e : Option Edge) : Option Key := e.map fun e => (e.source, e.sourceHandle)

/-- The expression of what an edge brings when outputs have the given expressions. -/
def bringing (T : Key → Spelling) (e : Option Edge) : Spelling := (wanted e).elim (.ok nothing) T

theorem bringing_congr {origin : Origin} {T T' : Key → Spelling}
    (h : ∀ e ∈ origin.edges, T (e.source, e.sourceHandle) = T' (e.source, e.sourceHandle)) :
    ∀ e ∈ origin.wires, bringing T e = bringing T' e := by
  intro e he
  cases e with
  | none => rfl
  | some e => exact h e (Origin.mem_edges_iff.2 he)

/-- The expression for an output of what comes from an origin, of which the given parts come in. -/
def written (handle : Option String) : Origin → List String → Spelling
  | .path path, _ => .ok (fieldText path)
  | .constant value dtype, _ => Constant.source dtype value
  | .operation op inputs, parts => .ok (applied op handle ((inputs.map (·.1)).zip parts))
  | .edge _, parts => .ok (parts.headD nothing)
  | .unknown, _ => .ok nothing

/-- The expression for an output of what comes from an origin, when outputs have the given
expressions. -/
def composed (handle : Option String) (origin : Origin) (T : Key → Spelling) : Spelling :=
  origin.wires.mapM (bringing T) >>= written handle origin

theorem composed_congr {origin : Origin} {handle : Option String} {T T' : Key → Spelling}
    (h : ∀ e ∈ origin.edges, T (e.source, e.sourceHandle) = T' (e.source, e.sourceHandle)) :
    composed handle origin T = composed handle origin T' := by
  rw [composed, composed, mapM_congr (bringing_congr h)]

/-- An expression that is written has all its parts. -/
theorem composed_eq_ok_iff {origin : Origin} {handle : Option String} {T : Key → Spelling}
    {text : String} : composed handle origin T = .ok text ↔
      ∃ parts, List.Forall₂ (fun e part => bringing T e = .ok part) origin.wires parts ∧
        written handle origin parts = .ok text := by
  rw [composed, bind_eq_ok_iff]
  simp only [mapM_eq_ok_iff]

/-- What an edge brings is passed on as it is. -/
theorem composed_edge {handle : Option String} {T : Key → Spelling} {e : Option Edge} :
    composed handle (.edge e) T = bringing T e := by
  rw [composed, Origin.wires, List.mapM_cons]
  cases bringing T e <;> rfl

/-- A part that comes in is nothing, or the expression of what an edge brings. -/
theorem forall_of_bringing {P : String → Prop} (hnothing : P nothing) {T : Key → Spelling}
    {wires : List (Option Edge)} {parts : List String}
    (hparts : List.Forall₂ (fun e part => bringing T e = .ok part) wires parts)
    (h : ∀ e, some e ∈ wires → ∀ text, T (e.source, e.sourceHandle) = .ok text → P text) :
    ∀ part ∈ parts, P part := by
  induction hparts with
  | nil => nofun
  | @cons e part _ _ hpart _ ih =>
    refine List.forall_mem_cons.2 ⟨?_, ih fun e he => h e (List.mem_cons_of_mem _ he)⟩
    cases e with
    | none => exact Except.ok.inj hpart ▸ hnothing
    | some e => exact h e List.mem_cons_self part hpart

/-- Nothing but a constant keeps an expression from being written. -/
theorem written_eq_error {handle : Option String} {origin : Origin} {parts : List String}
    {c : TooManyDigits} (h : written handle origin parts = .error c) :
    ∃ value dtype, origin = .constant value dtype ∧ Constant.source dtype value = .error c := by
  cases origin with
  | constant value dtype => exact ⟨value, dtype, rfl, h⟩
  | path | operation | edge | unknown => cases h

/-! ### Expressions of unfoldings -/

theorem mapM_zip {m : Type → Type} [Monad m] [LawfulMonad m] {α β γ : Type} (f : β → m γ)
    (l : List (α × β)) :
    (l.mapM fun (a, b) => do return (a, ← f b)) =
      (fun cs => (l.map (·.1)).zip cs) <$> (l.map (·.2)).mapM f := by
  induction l with
  | nil => simp
  | cons pair rest ih =>
    obtain ⟨a, b⟩ := pair
    rw [List.mapM_cons, ih]
    simp

/-- An expression is made in two steps: first its parts, then itself. -/
theorem originText_eq (handle : Option String) (ask : Key → Writing String) (origin : Origin) :
    originText handle ask origin =
      origin.wires.mapM (brought ask) >>= fun parts =>
        ExceptT.mk (pure (written handle origin parts)) := by
  cases origin with
  | path | constant | unknown => rfl
  | operation op inputs =>
    rw [originText, mapM_zip, bind_map_left]
    rfl
  | edge e =>
    simp only [originText, Origin.wires, List.mapM_cons, List.mapM_nil, bind_assoc, pure_bind]
    exact (bind_pure _).symm

theorem run_originText (handle : Option String) (ask : Key → Writing String) (origin : Origin)
    (memo : Memo) : (originText handle ask origin).run memo =
      match (origin.wires.mapM (brought ask)).run memo with
      | (.ok parts, memo') => (written handle origin parts, memo')
      | (.error c, memo') => (.error c, memo') := by
  rw [originText_eq, run_bind]
  rcases (origin.wires.mapM (brought ask)).run memo with ⟨c | parts, memo'⟩ <;> rfl

theorem meantOutput_meantOutput (op : Operator) (handle : Option String) :
    meantOutput op (some (meantOutput op handle)) = meantOutput op handle := by
  unfold meantOutput Text.orElse
  split <;> simp_all

/-- The handle under which an expression is kept asks for the same expression. -/
theorem written_keptHandle (origin : Origin) (handle : Option String) (parts : List String) :
    written (keptHandle origin handle) origin parts = written handle origin parts := by
  cases handle with
  | some handle => cases origin <;> rfl
  | none =>
    cases origin with
    | path | constant | edge | unknown => rfl
    | operation op inputs =>
      have hmeant : meantOutput op (some op.output.id) = meantOutput op none :=
        meantOutput_meantOutput op none
      show Except.ok (applied op (some op.output.id) _) = Except.ok (applied op none _)
      rw [applied, applied, hmeant]

end Code

mutual

/-- The expression that an unfolding amounts to, for an output of it. -/
def Unfolding.text : Unfolding → Option String → Spelling
  | .empty, _ => .ok nothing
  | .path p, _ => .ok (fieldText p)
  | .constant value dtype, _ => Constant.source dtype value
  | .operation op inputs, handle => (Unfolding.inputTexts inputs).map (applied op handle)
  | .output from_ source, _ => source.text from_
  | .unknown, _ => .ok nothing

/-- The expressions of what comes in at the ports of an operator. -/
def Unfolding.inputTexts : List (String × Option String × Unfolding) →
    Except TooManyDigits (List (String × String))
  | [] => .ok []
  | (port, from_, t) :: rest => do
    let text ← t.text from_
    return (port, text) :: (← Unfolding.inputTexts rest)

end

theorem Unfolding.inputTexts_eq (inputs : List (String × Option String × Unfolding)) :
    inputTexts inputs = inputs.mapM fun (port, from_, t) => do return (port, ← t.text from_) := by
  induction inputs with
  | nil => rfl
  | cons input rest ih =>
    obtain ⟨port, from_, t⟩ := input
    rw [inputTexts, ih, List.mapM_cons]
    simp

theorem Unfolding.text_ofEdge (children : String → Unfolding) (e : Option Edge) :
    (ofEdge children e).2.text (ofEdge children e).1 =
      bringing (fun key => (children key.1).text key.2) e := by
  cases e with
  | none => rfl
  | some e => rfl

theorem Unfolding.text_ofOrigin (children : String → Unfolding) (origin : Origin)
    (handle : Option String) :
    (ofOrigin children origin).text handle =
      composed handle origin fun key => (children key.1).text key.2 := by
  cases origin with
  | path | constant | unknown => rfl
  | operation op inputs =>
    have hinputs : inputTexts (inputs.map fun i => (i.1, ofEdge children i.2)) =
        inputs.mapM fun i => do
          return (i.1, ← bringing (fun key => (children key.1).text key.2) i.2) := by
      rw [inputTexts_eq, List.mapM_map]
      refine mapM_congr ?_
      rintro ⟨port, e⟩ -
      show (do return (port, ← (ofEdge children e).2.text (ofEdge children e).1)) = _
      rw [text_ofEdge]
    rw [ofOrigin, text, hinputs, mapM_zip, composed, Origin.wires]
    show Except.map _ (Except.map _ _) = _
    cases (inputs.map (·.2)).mapM (bringing fun key => (children key.1).text key.2) <;> rfl
  | edge e => rw [ofOrigin, text, text_ofEdge, composed_edge]

namespace Graph

/-- The expression for an output of a node that is not circular: its unfolding, written out. -/
def expression (g : Graph) (key : Key) : Spelling :=
  ((g.unfolding? key.1).map (·.text key.2)).getD (.ok nothing)

variable {g : Graph} {id : String} {handle : Option String} {n : Node} {t : Unfolding}

theorem expression_of_unfolds (h : g.Unfolds id t) : g.expression (id, handle) = t.text handle := by
  rw [expression, unfolding?_eq_some_iff.2 h]
  rfl

theorem expression_of_absent (h : g.node? id = none) : g.expression (id, handle) = .ok nothing :=
  expression_of_unfolds (.absent h)

theorem expression_of_node (hc : ¬ g.Circular id) (hn : g.node? id = some n) :
    g.expression (id, handle) = composed handle (g.origin n) g.expression := by
  obtain ⟨t, ht⟩ := exists_unfolds hc
  rw [expression_of_unfolds ht]
  cases ht with
  | absent hn' =>
    rw [hn] at hn'
    cases hn'
  | node hn' children unfolds =>
    rw [hn] at hn'
    obtain rfl := Option.some.inj hn'
    rw [Unfolding.text_ofOrigin]
    exact composed_congr fun e he => (expression_of_unfolds (unfolds e he)).symm

/-! ### Constants that cannot be written -/

/-- A constant that cannot be written is among the nodes that a node depends on, itself included. -/
def Unwritable (g : Graph) (id : String) : Prop :=
  ∃ other n value dtype, ReflTransGen g.Depends id other ∧ g.node? other = some n ∧
    g.origin n = .constant value dtype ∧ Constant.source dtype value = .error ⟨⟩

/-- What comes in is asked of a node that is depended on. -/
theorem depends_of_wanted (hn : g.node? id = some n) {key : Key}
    (hkey : some key ∈ (g.origin n).wires.map wanted) : g.Depends id key.1 := by
  obtain ⟨wire, hwire, hwanted⟩ := List.mem_map.1 hkey
  obtain ⟨e, rfl, rfl⟩ := Option.map_eq_some_iff.1 hwanted
  exact depends_source hn (Origin.mem_edges_iff.2 hwire)

theorem unwritable_of_depends {other : String} (h : g.Depends id other) (ho : g.Unwritable other) :
    g.Unwritable id := by
  obtain ⟨last, n, value, dtype, hreach, hlast⟩ := ho
  exact ⟨last, n, value, dtype, .head h hreach, hlast⟩

theorem unwritable_of_written (hn : g.node? id = some n) {parts : List String}
    (h : written handle (g.origin n) parts = .error ⟨⟩) : g.Unwritable id := by
  obtain ⟨value, dtype, horigin, hsource⟩ := written_eq_error h
  exact ⟨id, n, value, dtype, .refl, hn, horigin, hsource⟩

/-- What is composed of parts fails if one of them does. -/
theorem composed_eq_error {origin : Origin} {T : Key → Spelling} {e : Edge}
    (he : e ∈ origin.edges) (h : T (e.source, e.sourceHandle) = .error ⟨⟩) :
    composed handle origin T = .error ⟨⟩ := by
  have hwire : bringing T (some e) = .error ⟨⟩ := h
  obtain ⟨c, hc⟩ := exists_mapM_eq_error (Origin.mem_edges_iff.1 he) hwire
  rw [composed, hc]
  rfl

/-- The expression for an output is missing exactly if a constant that it would be made of cannot be
written. -/
theorem expression_eq_error_iff (hc : ¬ g.Circular id) :
    g.expression (id, handle) = .error ⟨⟩ ↔ g.Unwritable id := by
  constructor
  · intro h
    obtain ⟨t, ht⟩ := exists_unfolds hc
    clear hc
    rw [expression_of_unfolds ht] at h
    induction ht generalizing handle with
    | absent => cases h
    | @node id n hn children _ ih =>
      rw [Unfolding.text_ofOrigin, composed] at h
      rcases bind_eq_error_iff.1 h with h | ⟨parts, -, h⟩
      · obtain ⟨e, he, h⟩ := exists_of_mapM_eq_error h
        cases e with
        | none => cases h
        | some e =>
          have hedge := Origin.mem_edges_iff.2 he
          exact unwritable_of_depends (depends_source hn hedge) (ih e hedge h)
      · exact unwritable_of_written hn h
  · rintro ⟨other, n, value, dtype, hreach, hn, horigin, hsource⟩
    induction hreach using ReflTransGen.head_induction_on generalizing handle with
    | refl =>
      rw [expression_of_node hc hn, horigin]
      exact hsource
    | head hd _ ih =>
      obtain ⟨m, hm⟩ := hd.exists_node
      obtain ⟨e, he, rfl⟩ := (depends_iff hm).1 hd
      rw [expression_of_node hc hm]
      exact composed_eq_error he (ih (not_circular_source hc hm he))

/-! ### Properties of expressions -/

theorem forall_applied {P : String → Prop} (hnothing : P nothing) {op : Operator}
    {args : List (String × String)}
    (h : ∀ code, (op.template.fill? fun port => args.lookup port) = some code →
      ∀ output, P (code.select output)) : P (applied op handle args) := by
  rw [applied]
  cases hfill : op.template.fill? fun port => args.lookup port with
  | none => exact hnothing
  | some code => exact h code hfill _

theorem solid_fieldText (path : String) : Solid (fieldText path) :=
  (sealed_quote path).solid ')' (by decide) (by decide) (by decide)

/-- An expression has a property that operands on one line have, and that the code of an operator
gets from the expressions filled in, if its parts have it. -/
theorem written_induction {P : String → Prop} (hsolid : ∀ {text}, Solid text → P text)
    (happlied : ∀ op ∈ Catalog.operators, ∀ args : List (String × String),
      (∀ arg ∈ args, P arg.2) → P (applied op handle args))
    (n : Node) {parts : List String} (h : ∀ part ∈ parts, P part) {text : String}
    (htext : written handle (g.origin n) parts = .ok text) : P text := by
  have hnothing : P nothing := hsolid solid_none
  cases horigin : g.origin n with
  | path p =>
    rw [horigin] at htext
    exact Except.ok.inj htext ▸ hsolid (solid_fieldText p)
  | constant value dtype =>
    rw [horigin] at htext
    exact hsolid (Constant.solid_source htext)
  | operation op inputs =>
    rw [horigin] at htext
    obtain ⟨name, -, hlookup, -⟩ := exists_name_of_origin horigin
    rw [← Except.ok.inj htext]
    refine happlied op (Catalog.mem_of_lookup? hlookup) _ fun arg harg => ?_
    exact h arg.2 (List.of_mem_zip harg).2
  | edge e =>
    rw [horigin] at htext
    rw [← Except.ok.inj htext]
    cases parts with
    | nil => exact hnothing
    | cons part rest => exact h part List.mem_cons_self
  | unknown =>
    rw [horigin] at htext
    exact Except.ok.inj htext ▸ hnothing

theorem oneLine_nothing : OneLine nothing := by decide

theorem oneLine_applied {op : Operator} (hop : op ∈ Catalog.operators)
    {args : List (String × String)} (hargs : ∀ arg ∈ args, OneLine arg.2) :
    OneLine (applied op handle args) :=
  forall_applied oneLine_nothing fun _ hfill => Template.select_induction (by decide) OneLine.join
    hfill (Catalog.oneLine_texts op hop) fun port text h => hargs (port, text) (mem_of_lookup h)

theorem oneLine_written (n : Node) {parts : List String} (h : ∀ part ∈ parts, OneLine part)
    {text : String} (htext : written handle (g.origin n) parts = .ok text) : OneLine text :=
  written_induction Solid.oneLine (fun _ hop _ => oneLine_applied hop) n h htext

theorem Unfolds.oneLine_text (h : g.Unfolds id t) {text : String}
    (htext : t.text handle = .ok text) : OneLine text := by
  induction h generalizing handle text with
  | absent => exact Except.ok.inj htext ▸ oneLine_nothing
  | @node id n hn children _ ih =>
    rw [Unfolding.text_ofOrigin] at htext
    obtain ⟨parts, hparts, htext⟩ := composed_eq_ok_iff.1 htext
    refine oneLine_written n (forall_of_bringing oneLine_nothing hparts fun e he text hpart => ?_)
      htext
    exact ih e (Origin.mem_edges_iff.2 he) hpart

/-! ### Parts of an expression -/

/-- The part that comes in at an input of its own name is found under that name. -/
theorem exists_lookup_zip {inputs : List (String × Option Edge)} {parts : List String}
    {R : Option Edge → String → Prop} (hparts : List.Forall₂ R (inputs.map (·.2)) parts)
    (nodup : (inputs.map (·.1)).Nodup) {port : String} {e : Option Edge}
    (h : (port, e) ∈ inputs) :
    ∃ part, R e part ∧ ((inputs.map (·.1)).zip parts).lookup port = some part := by
  induction inputs generalizing parts with
  | nil => cases h
  | cons input rest ih =>
    cases hparts with
    | @cons _ part _ others hpart hothers =>
      rcases List.mem_cons.1 h with rfl | h
      · exact ⟨part, hpart, List.lookup_cons_self⟩
      · obtain ⟨hfresh, nodup⟩ := List.nodup_cons.1 nodup
        have hne : port ≠ input.1 := by
          intro heq
          exact hfresh (List.mem_map.2 ⟨(port, e), h, heq⟩)
        obtain ⟨part', hpart', hlookup⟩ := ih hothers nodup h
        exact ⟨part', hpart', (lookup_cons_of_ne hne).trans hlookup⟩

/-- What is found under a name is a part that comes in at an input of this name. -/
theorem exists_of_mem_zip {inputs : List (String × Option Edge)} {parts : List String}
    {R : Option Edge → String → Prop} (hparts : List.Forall₂ R (inputs.map (·.2)) parts)
    {port text : String} (h : (port, text) ∈ (inputs.map (·.1)).zip parts) :
    ∃ e, (port, e) ∈ inputs ∧ R e text := by
  induction inputs generalizing parts with
  | nil => cases h
  | cons input rest ih =>
    cases hparts with
    | cons hpart hothers =>
      rcases List.mem_cons.1 h with heq | h
      · obtain ⟨rfl, rfl⟩ := Prod.mk.inj heq
        exact ⟨input.2, List.mem_cons_self, hpart⟩
      · obtain ⟨e, he, hpart⟩ := ih hothers h
        exact ⟨e, List.mem_cons_of_mem input he, hpart⟩

/-- The template of an operator can be filled in with what comes in at the inputs. -/
theorem exists_code {op : Operator} (hop : op ∈ Catalog.operators)
    {inputs : List (String × Option Edge)} {parts : List String}
    (hports : inputs.map (·.1) = op.inputs.map (·.id)) {R : Option Edge → String → Prop}
    (hparts : List.Forall₂ R (inputs.map (·.2)) parts) :
    ∃ code, (op.template.fill? fun port => ((inputs.map (·.1)).zip parts).lookup port) =
      some code := by
  have nodup : (inputs.map (·.1)).Nodup := by
    rw [hports]
    exact Catalog.inputs_nodup op hop
  refine Template.exists_fill? fun hole hhole => ?_
  have hin := Catalog.holes_subset op hop hhole
  rw [← hports] at hin
  obtain ⟨⟨_, e'⟩, hinput, rfl⟩ := List.mem_map.1 hin
  obtain ⟨part, -, hpart⟩ := exists_lookup_zip hparts nodup hinput
  exact ⟨part, hpart⟩

theorem id_ne_loopId (hloop : n.isLoop = false) {name : String} (hname : n.operator? = some name)
    {op : Operator} (hlookup : Catalog.lookup? name = some op) : op.id ≠ Operator.loopId := by
  rw [Catalog.id_of_lookup? hlookup]
  intro heq
  rw [Node.isLoop, hname, heq] at hloop
  exact absurd hloop (by decide)

/-- The outputs of a node other than a loop have the same expression. -/
theorem written_eq_written (hloop : n.isLoop = false) (handle handle' : Option String)
    (parts : List String) :
    written handle (g.origin n) parts = written handle' (g.origin n) parts := by
  cases horigin : g.origin n with
  | path | constant | edge | unknown => rfl
  | operation op inputs =>
    obtain ⟨name, hname, hlookup, -⟩ := exists_name_of_origin horigin
    have hop := Catalog.mem_of_lookup? hlookup
    have hnot := Catalog.isByHandle_eq_false op hop (id_ne_loopId hloop hname hlookup)
    refine congrArg Except.ok ?_
    rw [applied, applied]
    cases htemplate : op.template with
    | byHandle expressions =>
      rw [htemplate] at hnot
      cases hnot
    | expression pieces =>
      rw [Template.fill?]
      cases pieces.mapM (Template.fillPiece? _) with
      | none => rfl
      | some texts => rfl

/-- What comes in at an input of an operator other than the loop stands in the expression. -/
theorem occurs_applied {op : Operator} (hop : op ∈ Catalog.operators)
    (hnot : op.id ≠ Operator.loopId) {inputs : List (String × Option Edge)} {parts : List String}
    (hports : inputs.map (·.1) = op.inputs.map (·.id)) {R : Option Edge → String → Prop}
    (hparts : List.Forall₂ R (inputs.map (·.2)) parts) {port : String} {e : Option Edge}
    (h : (port, e) ∈ inputs) :
    ∃ part, R e part ∧ Occurs part (applied op handle ((inputs.map (·.1)).zip parts)) := by
  have nodup : (inputs.map (·.1)).Nodup := by
    rw [hports]
    exact Catalog.inputs_nodup op hop
  have hhole : port ∈ op.template.holes := by
    refine Catalog.inputs_subset_holes op hop hnot ?_
    rw [← hports]
    exact List.mem_map_of_mem h
  obtain ⟨code, hcode⟩ := exists_code hop hports hparts
  obtain ⟨part, hpart, hfound⟩ := exists_lookup_zip hparts nodup h
  refine ⟨part, hpart, ?_⟩
  rw [applied, hcode]
  exact Template.occurs_select hcode hhole hfound _

/-- Whatever comes in at a node other than a loop stands in the expression of the node. -/
theorem occurs_written (hloop : n.isLoop = false) {parts : List String}
    {R : Option Edge → String → Prop} (hparts : List.Forall₂ R (g.origin n).wires parts) {e : Edge}
    (he : e ∈ (g.origin n).edges) {text : String}
    (htext : written handle (g.origin n) parts = .ok text) :
    ∃ part, R (some e) part ∧ Occurs part text := by
  cases horigin : g.origin n with
  | path | constant | unknown =>
    rw [horigin] at he
    cases he
  | edge e' =>
    rw [horigin] at he hparts htext
    obtain rfl : e' = some e := Option.mem_toList.1 he
    cases hparts with
    | cons hpart hnil => exact ⟨_, hpart, Except.ok.inj htext ▸ .refl _⟩
  | operation op inputs =>
    rw [horigin] at he hparts htext
    rw [← Except.ok.inj htext]
    obtain ⟨name, hname, hlookup, hinputs⟩ := exists_name_of_origin horigin
    obtain ⟨⟨port, -⟩, hmem, rfl⟩ := List.mem_filterMap.1 he
    have hports : inputs.map (·.1) = op.inputs.map (·.id) := by
      rw [hinputs, List.map_map]
      rfl
    exact occurs_applied (Catalog.mem_of_lookup? hlookup) (id_ne_loopId hloop hname hlookup)
      hports hparts hmem

end Graph

end NodeFlow
