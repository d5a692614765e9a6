import NodeFlow.Catalog
import NodeFlow.Proofs.Entries
import NodeFlow.Proofs.Text.Scan

/-!
# Templates that are filled in

What stands in the code of an operator: the expression for a hole stands in it as it is
(`Template.occurs_select`), and all else is fixed text.  Closed expressions make closed code, as no
hole of a template stands inside of quotes (`Template.closed_select`).  Every operator of the catalog
has an expression for each hole of its template, and every one but the loop has a hole for each
input.
-/

namespace NodeFlow

open Text

namespace Template

/-- The inputs that a template has holes for. -/
def holes : Template → List String
  | expression pieces => pieces.filterMap fun
    | .hole port => some port
    | .text _ => none
  | byHandle _ => []

/-- The fixed texts of a template. -/
def texts : Template → List String
  | expression pieces => pieces.filterMap fun
    | .hole _ => none
    | .text s => some s
  | byHandle expressions => expressions.map (·.2)

variable {t : Template} {args : String → Option String} {code : Snippet}

theorem hole_mem_iff {pieces : List Piece} {port : String} :
    Piece.hole port ∈ pieces ↔ port ∈ (expression pieces).holes := by
  rw [holes, List.mem_filterMap]
  constructor
  · intro h
    exact ⟨_, h, rfl⟩
  · rintro ⟨piece, hmem, h⟩
    cases piece with
    | hole port' =>
      obtain rfl := Option.some.inj h
      exact hmem
    | text s => cases h

theorem text_mem {pieces : List Piece} {s : String} (h : Piece.text s ∈ pieces) :
    s ∈ (expression pieces).texts :=
  List.mem_filterMap.2 ⟨_, h, rfl⟩

/-! ### Filling in piece by piece -/

theorem exists_mapM {α β : Type} {f : α → Option β} {l : List α}
    (h : ∀ i ∈ l, ∃ v, f i = some v) : ∃ vs, l.mapM f = some vs := by
  induction l with
  | nil => exact ⟨[], rfl⟩
  | cons i rest ih =>
    obtain ⟨v, hv⟩ := h i List.mem_cons_self
    obtain ⟨vs, hvs⟩ := ih fun j hj => h j (List.mem_cons_of_mem i hj)
    refine ⟨v :: vs, ?_⟩
    rw [List.mapM_cons, hv, hvs]
    rfl

theorem mem_of_mapM_eq_some {α β : Type} {f : α → Option β} {l : List α} {vs : List β}
    (h : l.mapM f = some vs) :
    (∀ i ∈ l, ∃ v ∈ vs, f i = some v) ∧ ∀ v ∈ vs, ∃ i ∈ l, f i = some v := by
  induction l generalizing vs with
  | nil =>
    obtain rfl := Option.some.inj h
    exact ⟨nofun, nofun⟩
  | cons i rest ih =>
    rw [List.mapM_cons] at h
    obtain ⟨v, hv, h⟩ := Option.bind_eq_some_iff.1 h
    obtain ⟨others, hothers, h⟩ := Option.bind_eq_some_iff.1 h
    obtain rfl := Option.some.inj h
    obtain ⟨into, from_⟩ := ih hothers
    refine ⟨fun j hj => ?_, fun w hw => ?_⟩
    · rcases List.mem_cons.1 hj with rfl | hj
      · exact ⟨v, List.mem_cons_self, hv⟩
      · obtain ⟨w, hw, hjw⟩ := into j hj
        exact ⟨w, List.mem_cons_of_mem v hw, hjw⟩
    · rcases List.mem_cons.1 hw with rfl | hw
      · exact ⟨i, List.mem_cons_self, hv⟩
      · obtain ⟨j, hj, hjw⟩ := from_ w hw
        exact ⟨j, List.mem_cons_of_mem i hj, hjw⟩

/-- A template can be filled in if there is an expression for each hole. -/
theorem exists_fill? (h : ∀ port ∈ t.holes, ∃ text, args port = some text) :
    ∃ code, t.fill? args = some code := by
  cases t with
  | byHandle expressions => exact ⟨_, rfl⟩
  | expression pieces =>
    have hpieces : ∀ piece ∈ pieces, ∃ text, fillPiece? args piece = some text := by
      intro piece hmem
      cases piece with
      | text s => exact ⟨s, rfl⟩
      | hole port => exact h port (hole_mem_iff.1 hmem)
    obtain ⟨filled, hfilled⟩ := exists_mapM hpieces
    refine ⟨.expression (.join filled), ?_⟩
    rw [fill?, hfilled]
    rfl

/-- What is filled into a hole stands in the code. -/
theorem occurs_select {port text : String} (h : t.fill? args = some code) (hport : port ∈ t.holes)
    (htext : args port = some text) (handle : Option String) :
    Occurs text (code.select handle) := by
  cases t with
  | byHandle => cases hport
  | expression pieces =>
    obtain ⟨filled, hfilled, rfl⟩ := Option.map_eq_some_iff.1 h
    obtain ⟨text', hmem, htext'⟩ := (mem_of_mapM_eq_some hfilled).1 _ (hole_mem_iff.2 hport)
    obtain rfl : text = text' := Option.some.inj (htext.symm.trans htext')
    exact occurs_join hmem

theorem forall_select {P : String → Prop} (hnone : P "None") {expressions : List (String × String)}
    (h : ∀ entry ∈ expressions, P entry.2) (handle : Option String) :
    P ((Snippet.byHandle expressions).select handle) := by
  cases handle with
  | none =>
    cases expressions with
    | nil => exact hnone
    | cons first rest => exact h first List.mem_cons_self
  | some handle =>
    show P ((expressions.lookup handle).getD "None")
    cases hlookup : expressions.lookup handle with
    | none => exact hnone
    | some text => exact h (handle, text) (mem_of_lookup hlookup)

/-- Code has a property that is kept when texts are joined, if the fixed texts and the expressions
filled in have it. -/
theorem select_induction {P : String → Prop} (hnone : P "None")
    (hjoin : ∀ {texts : List String}, (∀ text ∈ texts, P text) → P (String.join texts))
    (h : t.fill? args = some code) (htexts : ∀ s ∈ t.texts, P s)
    (hargs : ∀ port text, args port = some text → P text) (handle : Option String) :
    P (code.select handle) := by
  cases t with
  | expression pieces =>
    obtain ⟨filled, hfilled, rfl⟩ := Option.map_eq_some_iff.1 h
    refine hjoin fun text hmem => ?_
    obtain ⟨piece, hpiece, htext⟩ := (mem_of_mapM_eq_some hfilled).2 text hmem
    cases piece with
    | hole port => exact hargs port text htext
    | text s =>
      obtain rfl := Option.some.inj htext
      exact htexts s (text_mem hpiece)
  | byHandle expressions =>
    obtain rfl := Option.some.inj h
    exact forall_select hnone (fun entry he => htexts entry.2 (List.mem_map_of_mem he)) handle

/-! ### Closed code -/

/-- The scan behind a piece when what is filled in is closed. -/
def scanPiece (s : Scan) : Piece → Option Scan
  | .text t => scan s t.toList
  | .hole _ => if s.place = .code then some s else none

/-- Whether code is closed as soon as the expressions filled in are. -/
def Fits : Template → Prop
  | expression pieces => pieces.foldlM scanPiece ⟨[], .code⟩ = some ⟨[], .code⟩
  | byHandle expressions => ∀ entry ∈ expressions, Closed entry.2

instance : DecidablePred Fits
  | expression pieces =>
    inferInstanceAs (Decidable (pieces.foldlM scanPiece ⟨[], .code⟩ = some ⟨[], .code⟩))
  | byHandle expressions => inferInstanceAs (Decidable (∀ entry ∈ expressions, Closed entry.2))

theorem scan_fillPiece? {piece : Piece} {text : String} {s s' : Scan}
    (hargs : ∀ port text, args port = some text → Closed text)
    (htext : fillPiece? args piece = some text) (hscan : scanPiece s piece = some s') :
    scan s text.toList = some s' := by
  cases piece with
  | text t =>
    obtain rfl := Option.some.inj htext
    exact hscan
  | hole port =>
    obtain ⟨awaited, place⟩ := s
    unfold scanPiece at hscan
    by_cases hplace : place = .code
    · rw [if_pos hplace] at hscan
      obtain rfl := Option.some.inj hscan
      subst hplace
      exact (hargs port text htext).scan awaited
    · rw [if_neg hplace] at hscan
      cases hscan

/-- A filled template is scanned piece by piece. -/
theorem foldlM_join {step : Scan → Char → Option Scan} {behind : Scan → Piece → Option Scan}
    (hpiece : ∀ {piece text s s'}, fillPiece? args piece = some text →
      behind s piece = some s' → text.toList.foldlM step s = some s')
    {pieces : List Piece} {filled : List String} {s s' : Scan}
    (hfilled : pieces.mapM (fillPiece? args) = some filled)
    (hscan : pieces.foldlM behind s = some s') :
    (String.join filled).toList.foldlM step s = some s' := by
  induction pieces generalizing filled s with
  | nil =>
    obtain rfl := Option.some.inj hfilled
    simpa using hscan
  | cons piece pieces ih =>
    rw [List.mapM_cons] at hfilled
    obtain ⟨text, htext, hfilled⟩ := Option.bind_eq_some_iff.1 hfilled
    obtain ⟨others, hothers, hfilled⟩ := Option.bind_eq_some_iff.1 hfilled
    obtain rfl := Option.some.inj hfilled
    rw [List.foldlM_cons] at hscan
    obtain ⟨s₁, hfirst, hscan⟩ := Option.bind_eq_some_iff.1 hscan
    rw [String.toList_join, List.flatMap_cons, ← String.toList_join, List.foldlM_append,
      hpiece htext hfirst]
    exact ih hothers hscan

theorem scan_join {pieces : List Piece} {filled : List String} {s s' : Scan}
    (hargs : ∀ port text, args port = some text → Closed text)
    (hfilled : pieces.mapM (fillPiece? args) = some filled)
    (hscan : pieces.foldlM scanPiece s = some s') :
    scan s (String.join filled).toList = some s' :=
  foldlM_join (scan_fillPiece? hargs) hfilled hscan

theorem closed_select (h : t.fill? args = some code) (fits : t.Fits)
    (hargs : ∀ port text, args port = some text → Closed text) (handle : Option String) :
    Closed (code.select handle) := by
  cases t with
  | expression pieces =>
    obtain ⟨filled, hfilled, rfl⟩ := Option.map_eq_some_iff.1 h
    exact scan_join hargs hfilled fits
  | byHandle expressions =>
    obtain rfl := Option.some.inj h
    exact forall_select (by decide) fits handle

end Template

/-! ### The templates of the catalog -/

namespace Catalog

variable {id : String} {op : Operator}

theorem mem_of_lookup? (h : lookup? id = some op) : op ∈ operators := List.mem_of_find?_eq_some h

theorem id_of_lookup? (h : lookup? id = some op) : op.id = id := by
  have := List.find?_some h
  simpa using this

theorem inputs_nodup : ∀ op ∈ operators, (op.inputs.map (·.id)).Nodup := by decide

/-- Every hole is that of an input. -/
theorem holes_subset : ∀ op ∈ operators, op.template.holes ⊆ op.inputs.map (·.id) := by decide

/-- All operators but the loop have a hole for each input. -/
theorem inputs_subset_holes : ∀ op ∈ operators, op.id ≠ Operator.loopId →
    op.inputs.map (·.id) ⊆ op.template.holes := by decide

/-- All operators but the loop have the same code for each output. -/
theorem isByHandle_eq_false : ∀ op ∈ operators, op.id ≠ Operator.loopId →
    op.template.isByHandle = false := by decide

theorem oneLine_texts : ∀ op ∈ operators, ∀ s ∈ op.template.texts, OneLine s := by
  decide +kernel

theorem template_fits : ∀ op ∈ operators, op.template.Fits := by decide +kernel

end Catalog

end NodeFlow
