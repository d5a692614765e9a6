import NodeFlow.Proofs.Code.Closed
import NodeFlow.Proofs.Operator.Operand

/-!
# Expressions are single operands

The expression for an output of a node has no operator outside of its own brackets, so it stays one
operand in whatever hole it is put (`expressions_operands`).  The exceptions are expressions that
begin with the code of a repetition, which stands in no brackets.  A subscript behind such code is
taken of the number of repetitions and not of the list (`repetition_spills`).
-/

open NodeFlow.Text

namespace NodeFlow

/-- The nodes whose expression begins with a repetition: the repetition itself, a part of a list
that begins so, and an output of such a value. -/
inductive Graph.Loose (g : Graph) : String → Prop
  | repetition {id n} (hn : g.node? id = some n)
      (hop : n.operator? = some Operator.repetition.id) : Loose g id
  | subscript {id n op e} (hn : g.node? id = some n) (hop : n.operator? = some op)
      (hsub : op ∈ Catalog.subscripts) (he : g.inputEdge? id (some "list") = some e)
      (h : Loose g e.source) : Loose g id
  | output {id n e} (hn : g.node? id = some n) (hkind : n.kind = .output)
      (he : g.valueEdge? id = some e) (h : Loose g e.source) : Loose g id

namespace Code

variable {g : Graph} {id : String} {handle : Option String} {n : Node} {parts : List String}
  {memo : Memo} {key : Key} {e : Option Edge} {part text : String}

/-! ### Operands of nodes -/

/-- What the expression of a node is: closed, and an operand unless it begins with a repetition. -/
structure IsOperand (g : Graph) (id text : String) : Prop where
  isExpression : IsExpression text
  operand : ¬ g.Loose id → Operand text

theorem isOperand_of_solid (h : Solid text) : IsOperand g id text :=
  ⟨Solid.isExpression h, fun _ => h.operand⟩

theorem solid_nothing : Solid nothing := solid_none

theorem PartOf.closed (h : PartOf (IsOperand g) (wanted e) part) : Closed part :=
  h.imp solid_nothing.operand.closed fun h => h.isExpression.closed

theorem PartOf.operand (h : PartOf (IsOperand g) (wanted e) part)
    (hloose : ∀ e' ∈ e, ¬ g.Loose e'.source) : Operand part := by
  cases e with
  | none => exact h ▸ solid_nothing.operand
  | some e => exact IsOperand.operand h (hloose e rfl)

/-- The code of an operator is an operand if the node is not loose. -/
theorem operand_applied (hn : g.node? id = some n) {op : Operator}
    {inputs : List (String × Option Edge)} (horigin : g.origin n = .operation op inputs)
    (hparts : List.Forall₂ (fun e => PartOf (IsOperand g) (wanted e)) (inputs.map (·.2)) parts)
    (hloose : ¬ g.Loose id) : Operand (applied op handle ((inputs.map (·.1)).zip parts)) := by
  obtain ⟨name, hname, hlookup, hinputs⟩ := Graph.exists_name_of_origin horigin
  have hop := Catalog.mem_of_lookup? hlookup
  have hid := Catalog.id_of_lookup? hlookup
  have hrepetition : op.id ≠ Operator.repetition.id := fun heq =>
    hloose (.repetition hn (by rw [hname, ← hid, heq]))
  refine Graph.forall_applied solid_nothing.operand fun code hfill output => ?_
  refine Template.operand_select hfill (Catalog.template_tight op hop hrepetition)
    (fun port text hport => ?_) (fun port hbare text hport => ?_) output
  · obtain ⟨e, -, hpart⟩ := Graph.exists_of_mem_zip hparts (mem_of_lookup hport)
    exact hpart.closed
  · obtain ⟨e, he, hpart⟩ := Graph.exists_of_mem_zip hparts (mem_of_lookup hport)
    refine hpart.operand fun e' he' hloose' => hloose ?_
    -- The only input outside of brackets is the list of a subscript.
    obtain ⟨hsub, rfl⟩ : op.id ∈ Catalog.subscripts ∧ port = "list" := by
      simpa [Catalog.bareInputs] using hbare
    rw [hinputs] at he
    obtain ⟨p, -, hp⟩ := List.mem_map.1 he
    obtain ⟨hlist, rfl⟩ := Prod.mk.inj hp
    rw [hlist, Graph.node?_id hn] at he'
    exact .subscript hn hname (hid ▸ hsub) he' hloose'

theorem isOperand_written (hn : g.node? id = some n)
    (hparts : List.Forall₂ (PartOf (IsOperand g)) ((g.origin n).wires.map wanted) parts)
    (htext : written handle (g.origin n) parts = .ok text) : IsOperand g id text := by
  have hexpressions : ∀ part ∈ parts, IsExpression part :=
    forall_of_partOf isExpression_nothing IsOperand.isExpression hparts
  refine ⟨isExpression_written n hexpressions htext, fun hloose => ?_⟩
  rw [List.forall₂_map_left_iff] at hparts
  cases horigin : g.origin n with
  | path p =>
    rw [horigin] at htext
    exact Except.ok.inj htext ▸ (Graph.solid_fieldText p).operand
  | constant value dtype =>
    rw [horigin] at htext
    exact (Constant.solid_source htext).operand
  | operation op inputs =>
    rw [horigin] at hparts htext
    exact Except.ok.inj htext ▸ operand_applied hn horigin hparts hloose
  | edge e =>
    rw [horigin] at hparts htext
    cases hparts with
    | cons hpart _ =>
      obtain rfl := Except.ok.inj htext
      refine PartOf.operand hpart fun e' he' hloose' => hloose ?_
      obtain ⟨hkind, hvalue⟩ := Graph.kind_of_origin horigin
      rw [Graph.node?_id hn] at hvalue
      exact .output hn hkind (hvalue ▸ he') hloose'
  | unknown =>
    rw [horigin] at htext
    exact Except.ok.inj htext ▸ solid_nothing.operand

theorem inherited_isOperand (g : Graph) : Inherited g (IsOperand g) where
  absent _ _ := isOperand_of_solid solid_nothing
  mark _ := ⟨isExpression_cycleMark, fun _ => by decide⟩
  written hn hparts := isOperand_written hn hparts

/-- A memo whose entries are what expressions are. -/
def Operands (g : Graph) (memo : Memo) : Prop := ∀ entry ∈ memo, IsOperand g entry.1.1 entry.2

theorem operands_inlined (g : Graph) (queries : List Key) : Operands g (inlined g queries) :=
  inlined_induction (Operands g) nofun
    (fun h key => (inline_invariant (inherited_isOperand g) h key).2) queries

/-! ### Repetitions in the open -/

theorem closed_expression (hc : ¬ g.Circular key.1) (htext : g.expression key = .ok text) :
    Closed text := by
  rw [← fullText_eq_expression hc] at htext
  have hnil : Operands g [] := nofun
  exact ((inline_invariant (inherited_isOperand g) hnil key).1 text htext).isExpression.closed

/-- The parts that the expression of a node that is not circular is written with are closed. -/
theorem forall₂_closed (hc : ¬ g.Circular id) (hn : g.node? id = some n)
    (hparts : List.Forall₂ (fun e part => bringing g.expression e = .ok part)
      (g.origin n).wires parts) :
    List.Forall₂ (fun e part => bringing g.expression e = .ok part ∧ Closed part)
      (g.origin n).wires parts := by
  have hsources : ∀ e ∈ (g.origin n).wires, ∀ e' ∈ e, ¬ g.Circular e'.source := by
    rintro _ he e' rfl
    exact Graph.not_circular_source hc hn (Origin.mem_edges_iff.2 he)
  refine ((List.forall₂_and_left _ _).2 ⟨hsources, hparts⟩).imp ?_
  rintro e part ⟨hsource, hpart⟩
  refine ⟨hpart, ?_⟩
  cases e with
  | none => exact Except.ok.inj hpart ▸ solid_nothing.operand.closed
  | some e => exact closed_expression (hsource e rfl) hpart

/-- The code of a node that applies an operator of the catalog is the template of that, filled in
with closed expressions. -/
theorem exists_filled {name : String} {op : Operator} (hc : ¬ g.Circular id)
    (hn : g.node? id = some n) (hname : n.operator? = some name)
    (hlookup : Catalog.lookup? name = some op) (htext : g.expression (id, handle) = .ok text) :
    ∃ args code output, op.template.fill? args = some code ∧
      (∀ port text, args port = some text → Closed text) ∧
      (∀ p ∈ op.inputs, ∀ e, g.inputEdge? id (some p.id) = some e → ¬ g.Circular e.source ∧
        ∃ part, args p.id = some part ∧ g.expression (e.source, e.sourceHandle) = .ok part) ∧
      text = code.select output := by
  have hop := Catalog.mem_of_lookup? hlookup
  have horigin := Graph.origin_of_operator (g := g) hname hlookup
  rw [Graph.node?_id hn] at horigin
  generalize hinputs : (op.inputs.map fun p => (p.id, g.inputEdge? id (some p.id))) = inputs
    at horigin
  have hports : inputs.map (·.1) = op.inputs.map (·.id) := by
    rw [← hinputs, List.map_map]
    rfl
  rw [Graph.expression_of_node hc hn] at htext
  obtain ⟨parts, hbrought, htext⟩ := composed_eq_ok_iff.1 htext
  have hparts := forall₂_closed hc hn hbrought
  rw [horigin, Origin.wires] at hparts
  rw [horigin] at htext
  obtain ⟨code, hcode⟩ := Graph.exists_code hop hports hparts
  refine ⟨_, code, some (meantOutput op handle), hcode, fun port text hport => ?_,
    fun p hp e he => ?_, ?_⟩
  · obtain ⟨e, -, -, hclosed⟩ := Graph.exists_of_mem_zip hparts (mem_of_lookup hport)
    exact hclosed
  · have hinput : (p.id, some e) ∈ inputs := by
      rw [← hinputs, ← he]
      exact List.mem_map_of_mem hp
    have hedge : e ∈ (g.origin n).edges := by
      rw [Origin.mem_edges_iff, horigin]
      exact List.mem_map_of_mem hinput
    have nodup : (inputs.map (·.1)).Nodup := by
      rw [hports]
      exact Catalog.inputs_nodup op hop
    obtain ⟨part, ⟨hpart, -⟩, hfound⟩ := Graph.exists_lookup_zip hparts nodup hinput
    exact ⟨Graph.not_circular_source hc hn hedge, part, hfound, hpart⟩
  · rw [← Except.ok.inj htext, applied, hcode]

/-- The expression of a loose node repeats in the open. -/
theorem repeats_expression (h : g.Loose id) (hc : ¬ g.Circular id)
    (htext : g.expression (id, handle) = .ok text) : Repeats text := by
  induction h generalizing handle text with
  | repetition hn hop =>
    have hlookup : Catalog.lookup? Operator.repetition.id = some Operator.repetition := rfl
    obtain ⟨args, code, output, hfill, hargs, -, rfl⟩ := exists_filled hc hn hop hlookup htext
    exact Catalog.repeats_repetition hfill hargs output
  | @subscript id n name e hn hname hsub he _ ih =>
    obtain ⟨op, hlookup, hlist, hopening⟩ := Catalog.exists_subscript hsub
    obtain ⟨args, code, output, hfill, -, hinput, rfl⟩ := exists_filled hc hn hname hlookup htext
    obtain ⟨hsource, part, hfirst, hpart⟩ := hinput Operator.listPort hlist e he
    obtain ⟨more, hmore⟩ := Template.exists_eq_append_of_opening hfill hopening hfirst
    rw [hmore]
    exact (ih hsource hpart).append more
  | @output id n e hn hkind he _ ih =>
    have horigin : g.origin n = .edge (some e) := by
      rw [Graph.origin_of_output hkind, Graph.node?_id hn, he]
    have hedge : e ∈ (g.origin n).edges := by simp [horigin, Origin.edges]
    rw [Graph.expression_of_node hc hn, horigin, composed_edge] at htext
    exact ih (Graph.not_circular_source hc hn hedge) htext

/-- **Expressions are single operands.**  After any queries, the expression for an output of a node
that is not loose has no blank, and so no operator between blanks, outside of brackets and quotes.
In every hole of every template of the catalog, whatever closed texts stand before it, each blank of
the expression is deeper in brackets than the hole, or in quotes.  The expression for an output of
a loose node repeats in the open, if the node is not circular.  There is no expression only where a
constant cannot be written. -/
theorem expressions_operands (g : Graph) (before : List Key) (key : Key) :
    let outcome := ((inline g key).run (inlined g before)).1
    (∀ text, outcome = .ok text →
      (¬ g.Loose key.1 →
        (∀ first rest, text.toList = first ++ ' ' :: rest →
          scan ⟨[], .code⟩ first ≠ some ⟨[], .code⟩) ∧
        ∀ op ∈ Catalog.operators, ∀ opening port closing,
          op.template = .expression (opening ++ .hole port :: closing) → ∀ args filled,
          (∀ port text, args port = some text → Closed text) →
          opening.mapM (Template.fillPiece? args) = some filled →
          ∃ awaited, scan ⟨[], .code⟩ (String.join filled).toList = some ⟨awaited, .code⟩ ∧
            ∀ first rest, text.toList = first ++ ' ' :: rest → ∃ opened place,
              scan ⟨awaited, .code⟩ first = some ⟨opened ++ awaited, place⟩ ∧
              (opened ≠ [] ∨ place ≠ .code)) ∧
      (g.Loose key.1 → ¬ g.Circular key.1 →
        ∃ first rest, Closed first ∧ text = first ++ (" * " ++ rest))) ∧
    (outcome = .error ⟨⟩ → g.Unwritable key.1) := by
  intro outcome
  refine ⟨fun text hrun => ⟨fun hloose => ?_, fun hloose hc => ?_⟩, unwritable_of_inline⟩
  · have htext : IsOperand g key.1 text :=
      (inline_invariant (inherited_isOperand g) (operands_inlined g before) key).1 text hrun
    have hoperand := htext.operand hloose
    refine ⟨(operand_iff.1 hoperand).2, fun op hop opening port closing htemplate args filled
      hargs hfilled => ?_⟩
    have hfits := Catalog.template_fits op hop
    rw [htemplate] at hfits
    obtain ⟨awaited, hawaited⟩ := Template.exists_scan_before hfits hargs hfilled
    exact ⟨awaited, hawaited, fun first rest h => hoperand.scan_blank awaited h⟩
  · exact repeats_expression hloose hc
      (((right_inline (right_inlined g before) key).1 text hrun).expression hc)

/-- A list of three ones, turned round and added up. -/
def repeated : Graph where
  nodes := [⟨"one", none, .const (.int 1) .number none⟩,
    ⟨"three", none, .const (.int 3) .number none⟩,
    ⟨"triple", none, .operator "repeat" none []⟩, ⟨"back", none, .operator "reverse" none []⟩,
    ⟨"total", none, .operator "sum_list" none []⟩]
  edges := [⟨none, "one", none, "triple", some "value"⟩,
    ⟨none, "three", none, "triple", some "count"⟩, ⟨none, "triple", none, "back", some "list"⟩,
    ⟨none, "back", none, "total", some "list"⟩]
  metadata := []

theorem expressions_operands_total : ¬ repeated.Loose "total" ∧
    ((inline repeated ("total", none)).run []).1 = .ok "sum([1] * 3[::-1])" ∧
    ∀ first rest, "sum([1] * 3[::-1])".toList = first ++ ' ' :: rest →
      scan ⟨[], .code⟩ first ≠ some ⟨[], .code⟩ := by
  have hloose : ¬ repeated.Loose "total" := by
    have hnode : repeated.node? "total" = some ⟨"total", none, .operator "sum_list" none []⟩ := rfl
    intro h
    cases h with
    | repetition hn hop =>
      obtain rfl := Option.some.inj (hnode.symm.trans hn)
      exact absurd hop (by decide)
    | subscript hn hop hsub =>
      obtain rfl := Option.some.inj (hnode.symm.trans hn)
      obtain rfl := Option.some.inj hop
      exact absurd hsub (by decide)
    | output hn hkind =>
      obtain rfl := Option.some.inj (hnode.symm.trans hn)
      exact absurd hkind (by decide)
  have htext : ((inline repeated ("total", none)).run []).1 = .ok "sum([1] * 3[::-1])" := by
    decide +kernel
  have hoperand := ((expressions_operands repeated [] ("total", none)).1 _ htext).1 hloose
  exact ⟨hloose, htext, hoperand.1⟩

/-- The subscript is taken of the number of repetitions, not of the list. -/
theorem repetition_spills :
    ((inline repeated ("triple", none)).run []).1 = .ok "[1] * 3" ∧
    ((inline repeated ("back", none)).run []).1 = .ok ("[1] * 3" ++ "[::-1]") ∧
    scan ⟨[], .code⟩ "[1]".toList = some ⟨[], .code⟩ ∧
    ¬ Operand "[1] * 3" ∧ ¬ Operand "[1] * 3[::-1]" := by
  decide +kernel

end Code

end NodeFlow
