import NodeFlow.Proofs.Code.Expression

/-!
# Expressions are closed

The expression for an output of a node is closed, on a cycle too and after any queries: all brackets
and quotes in it are closed in their order, and it has no line end but those of cycle marks
(`expressions_closed`).  So whatever text stands in a graph, the expression stays in the place where
it is put.
-/

open NodeFlow.Text

namespace NodeFlow.Code

variable {g : Graph} {handle : Option String} {key : Key} {text t u : String} {memo : Memo}

/-! ### Line ends of cycle marks -/

/-- Every line end of a text is that of a cycle mark in it. -/
def MarkedLines (t : String) : Prop :=
  ∀ first rest, t.toList = first ++ '\n' :: rest → ∃ before opening closing after,
    cycleMark.toList = opening ++ '\n' :: closing ∧ first = before ++ opening
      ∧ rest = closing ++ after

theorem markedLines_cycleMark : MarkedLines cycleMark :=
  fun first rest h => ⟨[], first, rest, [], h, rfl, (List.append_nil rest).symm⟩

theorem markedLines_of_oneLine (h : OneLine t) : MarkedLines t := by
  intro first rest ht
  refine absurd ?_ h
  rw [ht]
  exact List.mem_append_right first List.mem_cons_self

theorem MarkedLines.append (ht : MarkedLines t) (hu : MarkedLines u) : MarkedLines (t ++ u) := by
  intro first rest h
  rw [String.toList_append, List.append_eq_append_iff] at h
  have inSecond {more : List Char} (hfirst : first = t.toList ++ more)
      (hsecond : u.toList = more ++ '\n' :: rest) : ∃ before opening closing after,
        cycleMark.toList = opening ++ '\n' :: closing ∧ first = before ++ opening
          ∧ rest = closing ++ after := by
    obtain ⟨before, opening, closing, after, hmark, rfl, rfl⟩ := hu more rest hsecond
    exact ⟨t.toList ++ before, opening, closing, after, hmark, by simp [hfirst], rfl⟩
  rcases h with ⟨more, hfirst, hsecond⟩ | ⟨more, htext, hmore⟩
  · exact inSecond hfirst hsecond
  · cases more with
    | nil =>
      rw [List.append_nil] at htext
      exact inSecond (htext.symm.trans (List.append_nil _).symm) hmore.symm
    | cons c more =>
      obtain ⟨rfl, rfl⟩ := List.cons.inj hmore
      obtain ⟨before, opening, closing, after, hmark, hfirst, rfl⟩ := ht first more htext
      exact ⟨before, opening, closing, after ++ u.toList, hmark, hfirst, List.append_assoc ..⟩

theorem MarkedLines.join {texts : List String} (h : ∀ t ∈ texts, MarkedLines t) :
    MarkedLines (String.join texts) :=
  join_induction (markedLines_of_oneLine (by decide)) MarkedLines.append h

/-! ### Expressions -/

/-- What every expression is: closed, with no line end but those of cycle marks. -/
structure IsExpression (text : String) : Prop where
  closed : Closed text
  markedLines : MarkedLines text

theorem Solid.isExpression (h : Solid text) : IsExpression text :=
  ⟨h.operand.closed, markedLines_of_oneLine h.oneLine⟩

theorem isExpression_applied {op : Operator} (hop : op ∈ Catalog.operators)
    {args : List (String × String)} (hargs : ∀ arg ∈ args, IsExpression arg.2) :
    IsExpression (applied op handle args) := by
  have harg : ∀ port text, args.lookup port = some text → IsExpression text :=
    fun port text h => hargs (port, text) (mem_of_lookup h)
  refine Graph.forall_applied (Solid.isExpression solid_none) fun code hfill output => ?_
  have hclosed := Template.closed_select hfill (Catalog.template_fits op hop)
    (fun port text h => (harg port text h).closed) output
  have hlines := Template.select_induction (markedLines_of_oneLine (by decide)) MarkedLines.join
    hfill (fun s hs => markedLines_of_oneLine (Catalog.oneLine_texts op hop s hs))
    (fun port text h => (harg port text h).markedLines) output
  exact ⟨hclosed, hlines⟩

theorem isExpression_cycleMark : IsExpression cycleMark :=
  ⟨by decide, markedLines_cycleMark⟩

theorem isExpression_nothing : IsExpression nothing := Solid.isExpression solid_none

theorem isExpression_written (n : Node) {parts : List String}
    (h : ∀ part ∈ parts, IsExpression part) (htext : written handle (g.origin n) parts = .ok text) :
    IsExpression text :=
  Graph.written_induction Solid.isExpression (fun _ hop _ => isExpression_applied hop) n h htext

theorem inherited_isExpression (g : Graph) : Inherited g fun _ => IsExpression where
  absent _ _ := isExpression_nothing
  mark _ := isExpression_cycleMark
  written _ hparts := isExpression_written _ (forall_of_partOf isExpression_nothing id hparts)

/-- A memo of nothing but expressions. -/
def Expressions (memo : Memo) : Prop := ∀ entry ∈ memo, IsExpression entry.2

theorem expressions_inlined (g : Graph) (queries : List Key) : Expressions (inlined g queries) :=
  inlined_induction Expressions nofun
    (fun h key => (inline_invariant (inherited_isExpression g) h key).2) queries

/-- **Expressions are closed.**  After any queries, a scan of the expression for an output of a node
ends with all brackets and quotes closed.  In the place where it is put, the expression closes no
bracket but its own.  Its line ends are those of cycle marks, inside of brackets and outside of
quotes.  There is no expression only where a constant cannot be written.  A quoted text, which is
the only form in which texts of a graph stand in expressions, ends at its last quote and not
before. -/
theorem expressions_closed (g : Graph) (before : List Key) (key : Key) :
    let outcome := ((inline g key).run (inlined g before)).1
    (∀ text, outcome = .ok text →
      Closed text ∧
      (∀ awaited, scan ⟨awaited, .code⟩ text.toList = some ⟨awaited, .code⟩ ∧
        ∀ first rest, text.toList = first ++ rest → ∃ opened place,
          scan ⟨awaited, .code⟩ first = some ⟨opened ++ awaited, place⟩) ∧
      ∀ first rest, text.toList = first ++ '\n' :: rest →
        (∃ awaited, awaited ≠ [] ∧ scan ⟨[], .code⟩ first = some ⟨awaited, .code⟩) ∧
        ∃ before opening closing after, cycleMark.toList = opening ++ '\n' :: closing ∧
          first = before ++ opening ∧ rest = closing ++ after) ∧
    (outcome = .error ⟨⟩ → g.Unwritable key.1) ∧
    ∀ (s : String) first rest awaited, (quote s).toList = first ++ rest → first ≠ [] →
      rest ≠ [] → ∃ place, place ≠ .code ∧ scan ⟨awaited, .code⟩ first = some ⟨awaited, place⟩ := by
  intro outcome
  refine ⟨fun text hrun => ?_, unwritable_of_inline,
    fun s first rest awaited h hfirst hrest => exists_scan_quote h hfirst hrest awaited⟩
  have htext : IsExpression text :=
    (inline_invariant (inherited_isExpression g) (expressions_inlined g before) key).1 text hrun
  refine ⟨htext.closed, fun awaited => ⟨htext.closed.scan awaited, ?_⟩, fun first rest h => ?_⟩
  · exact fun first rest h => htext.closed.scan_prefix awaited h
  · have hclosed := htext.closed
    rw [Closed, h] at hclosed
    exact ⟨exists_scan_newline hclosed, htext.markedLines first rest h⟩

end NodeFlow.Code
