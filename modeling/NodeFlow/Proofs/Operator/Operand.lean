import NodeFlow.Proofs.Operator.Template
import NodeFlow.Proofs.Text.Operand

/-!
# Templates of operands

A template makes an operand of whatever is filled in if it has no blank outside of brackets, and
operands stand in the holes there (`Template.operand_select`).  All templates of the catalog do so
but the one of the repetition, which joins its two parts by an operator
(`Catalog.repeats_repetition`).  The only holes outside of brackets are for lists of which a part
is taken by a subscript.
-/

namespace NodeFlow

open Text

namespace Template

variable {t : Template} {args : String → Option String} {code : Snippet} {bare : List String}

/-- The scan behind a piece, which stops at blanks outside of brackets, when what is filled in is
closed and an operand at some inputs. -/
def tightPiece (bare : List String) (s : Scan) : Piece → Option Scan
  | .text t => tightScan s t.toList
  | .hole port => if s.place = .code ∧ (s.awaited = [] → port ∈ bare) then some s else none

/-- Whether code is an operand as soon as the expressions filled in are closed, and those at some
inputs are operands. -/
def Tight (bare : List String) : Template → Prop
  | expression pieces => pieces.foldlM (tightPiece bare) ⟨[], .code⟩ = some ⟨[], .code⟩
  | byHandle expressions => ∀ entry ∈ expressions, Operand entry.2

instance (bare : List String) : DecidablePred (Tight bare)
  | expression pieces => inferInstanceAs
      (Decidable (pieces.foldlM (tightPiece bare) ⟨[], .code⟩ = some ⟨[], .code⟩))
  | byHandle expressions => inferInstanceAs (Decidable (∀ entry ∈ expressions, Operand entry.2))

theorem tightScan_fillPiece? {piece : Piece} {text : String} {s s' : Scan}
    (hargs : ∀ port text, args port = some text → Closed text)
    (hbare : ∀ port ∈ bare, ∀ text, args port = some text → Operand text)
    (htext : fillPiece? args piece = some text) (hscan : tightPiece bare s piece = some s') :
    tightScan s text.toList = some s' := by
  cases piece with
  | text t =>
    obtain rfl := Option.some.inj htext
    exact hscan
  | hole port =>
    obtain ⟨awaited, place⟩ := s
    simp only [tightPiece] at hscan
    by_cases hhole : place = .code ∧ (awaited = [] → port ∈ bare)
    · rw [if_pos hhole] at hscan
      obtain rfl := Option.some.inj hscan
      obtain ⟨rfl, hport⟩ := hhole
      by_cases hawaited : awaited = []
      · subst hawaited
        exact hbare port (hport rfl) text htext
      · exact tightScan_frame (hargs port text htext) hawaited
    · rw [if_neg hhole] at hscan
      cases hscan

theorem operand_select (h : t.fill? args = some code) (tight : t.Tight bare)
    (hargs : ∀ port text, args port = some text → Closed text)
    (hbare : ∀ port ∈ bare, ∀ text, args port = some text → Operand text)
    (handle : Option String) : Operand (code.select handle) := by
  cases t with
  | expression pieces =>
    obtain ⟨filled, hfilled, rfl⟩ := Option.map_eq_some_iff.1 h
    exact foldlM_join (tightScan_fillPiece? hargs hbare) hfilled tight
  | byHandle expressions =>
    obtain rfl := Option.some.inj h
    exact forall_select (by decide) tight handle

/-! ### Holes -/

/-- Every hole stands outside of quotes, among brackets that the text before it leaves open. -/
theorem exists_scan_before {before after : List Piece} {port : String} {filled : List String}
    (fits : (expression (before ++ .hole port :: after)).Fits)
    (hargs : ∀ port text, args port = some text → Closed text)
    (hfilled : before.mapM (fillPiece? args) = some filled) :
    ∃ awaited, scan ⟨[], .code⟩ (String.join filled).toList = some ⟨awaited, .code⟩ := by
  rw [Fits, List.foldlM_append] at fits
  obtain ⟨⟨awaited, place⟩, hbefore, hrest⟩ := Option.bind_eq_some_iff.1 fits
  by_cases hplace : place = .code
  · subst hplace
    exact ⟨awaited, scan_join hargs hfilled hbefore⟩
  · simp [scanPiece, hplace] at hrest

/-- The input whose expression the code begins with. -/
def opening : Template → Option String
  | expression (.hole port :: _) => some port
  | _ => none

theorem exists_eq_append_of_opening {port text : String} (h : t.fill? args = some code)
    (hopening : t.opening = some port) (htext : args port = some text) :
    ∃ more, ∀ handle, code.select handle = text ++ more := by
  match t, hopening with
  | expression (.hole _ :: rest), rfl =>
    obtain ⟨filled, hfilled, rfl⟩ := Option.map_eq_some_iff.1 h
    rw [List.mapM_cons] at hfilled
    obtain ⟨text', htext', hfilled⟩ := Option.bind_eq_some_iff.1 hfilled
    obtain ⟨others, -, hfilled⟩ := Option.bind_eq_some_iff.1 hfilled
    obtain rfl := Option.some.inj hfilled
    obtain rfl : text = text' := Option.some.inj (htext.symm.trans htext')
    exact ⟨String.join others, fun _ => String.join_cons⟩

end Template

/-! ### Repetitions -/

/-- The sign of a repetition stands in a text outside of brackets and quotes. -/
def Repeats (t : String) : Prop :=
  ∃ first rest, Closed first ∧ t = first ++ (" * " ++ rest)

theorem Repeats.append {t : String} (h : Repeats t) (u : String) : Repeats (t ++ u) := by
  obtain ⟨first, rest, hfirst, rfl⟩ := h
  exact ⟨first, rest ++ u, hfirst, by rw [String.append_assoc, String.append_assoc]⟩

/-! ### The templates of the catalog -/

namespace Catalog

/-- The operators whose code is a list with a subscript. -/
def subscripts : List String :=
  [Operator.slice.id, Operator.reverse.id, Operator.take.id, Operator.drop.id]

/-- The inputs of an operator that stand outside of brackets. -/
def bareInputs (id : String) : List String := if id ∈ subscripts then ["list"] else []

theorem template_tight : ∀ op ∈ operators, op.id ≠ Operator.repetition.id →
    op.template.Tight (bareInputs op.id) := by
  decide +kernel

theorem exists_subscript {name : String} (h : name ∈ subscripts) :
    ∃ op, lookup? name = some op ∧ Operator.listPort ∈ op.inputs ∧
      op.template.opening = some Operator.listPort.id := by
  simp only [subscripts, List.mem_cons, List.not_mem_nil, or_false] at h
  rcases h with rfl | rfl | rfl | rfl
  · exact ⟨Operator.slice, rfl, List.mem_cons_self, rfl⟩
  · exact ⟨Operator.reverse, rfl, List.mem_cons_self, rfl⟩
  · exact ⟨Operator.take, rfl, List.mem_cons_self, rfl⟩
  · exact ⟨Operator.drop, rfl, List.mem_cons_self, rfl⟩

theorem fill?_repetition {args : String → Option String} {code : Snippet}
    (h : Operator.repetition.template.fill? args = some code) :
    ∃ value count, args "value" = some value ∧
      code = .expression ("[" ++ value ++ "]" ++ (" * " ++ count)) := by
  cases hvalue : args "value" with
  | none => simp [Operator.repetition, Template.fill?, Template.fillPiece?, hvalue] at h
  | some value =>
    cases hcount : args "count" with
    | none => simp [Operator.repetition, Template.fill?, Template.fillPiece?, hcount] at h
    | some count =>
      refine ⟨value, count, rfl, ?_⟩
      simp only [Operator.repetition, Template.fill?, List.mapM_cons, List.mapM_nil,
        Template.fillPiece?, hvalue, hcount] at h
      rw [← Option.some.inj h]
      simp [String.join_cons, ← String.toList_inj]

/-- The code of a repetition repeats in the open, whatever is filled in. -/
theorem repeats_repetition {args : String → Option String} {code : Snippet}
    (h : Operator.repetition.template.fill? args = some code)
    (hargs : ∀ port text, args port = some text → Closed text) (handle : Option String) :
    Repeats (code.select handle) := by
  obtain ⟨value, count, hvalue, rfl⟩ := fill?_repetition h
  have hlist : Closed ("[" ++ value ++ "]") :=
    (hargs "value" value hvalue).between [']'] (by decide) (by decide)
  exact ⟨"[" ++ value ++ "]", count, hlist, rfl⟩

end Catalog

end NodeFlow
