import NodeFlow.Proofs.Text.Scan

/-!
# Operands

Binary operators stand between blanks.  An operand is a closed text without a blank outside of
brackets and quotes, so with no operator there (`operand_iff`).  Wherever it is put, no blank in it
stands at the level of that place (`Operand.scan_blank`).  Texts without blanks, quoted texts and
closed texts in brackets are operands.
-/

namespace NodeFlow.Text

/-! ### Scans that stop at outer blanks -/

/-- The scan behind a character, unless it fails there or meets a blank outside of brackets and
quotes. -/
def Scan.tightStep (s : Scan) (c : Char) : Option Scan :=
  if c = ' ' ∧ s = ⟨[], .code⟩ then none else s.step c

/-- The scan behind some characters, unless it fails or meets a blank outside of brackets and
quotes. -/
def tightScan (s : Scan) (cs : List Char) : Option Scan := cs.foldlM Scan.tightStep s

variable {s s' : Scan} {cs first rest outer : List Char} {t u : String}

theorem tightScan_append :
    tightScan s (first ++ rest) = (tightScan s first).bind (tightScan · rest) :=
  List.foldlM_append

theorem tightScan_cons {c : Char} :
    tightScan s (c :: cs) = (s.tightStep c).bind (tightScan · cs) :=
  List.foldlM_cons

/-- The scan that stops at outer blanks is the scan of a text that has none. -/
theorem tightScan_eq_some_iff : tightScan s cs = some s' ↔ scan s cs = some s' ∧
    ∀ first rest, cs = first ++ ' ' :: rest → scan s first ≠ some ⟨[], .code⟩ := by
  induction cs generalizing s with
  | nil => simp [tightScan, scan]
  | cons c cs ih =>
    rw [tightScan_cons, scan_cons, Scan.tightStep]
    by_cases hblank : c = ' ' ∧ s = ⟨[], .code⟩
    · obtain ⟨rfl, rfl⟩ := hblank
      simp only [and_self, if_true, Option.bind_none, reduceCtorEq, false_iff, not_and]
      exact fun _ h => h [] cs rfl rfl
    · rw [if_neg hblank]
      cases hstep : s.step c with
      | none => simp
      | some s₁ =>
        rw [Option.bind_some, Option.bind_some, ih]
        refine and_congr_right fun _ => ⟨fun h first rest hcs => ?_, fun h first rest hcs => ?_⟩
        · cases first with
          | nil =>
            obtain ⟨rfl, -⟩ := List.cons.inj hcs
            exact fun hs => hblank ⟨rfl, Option.some.inj hs⟩
          | cons d first =>
            obtain ⟨rfl, hrest⟩ := List.cons.inj hcs
            rw [scan_cons, hstep]
            exact h first rest hrest
        · have hfirst := h (c :: first) rest (congrArg (c :: ·) hcs)
          rwa [scan_cons, hstep] at hfirst

/-- Inside of brackets every blank is passed. -/
theorem tightScan_frame (h : scan s cs = some s') (houter : outer ≠ []) :
    tightScan ⟨s.awaited ++ outer, s.place⟩ cs = some ⟨s'.awaited ++ outer, s'.place⟩ := by
  refine tightScan_eq_some_iff.2 ⟨scan_frame h outer, fun first rest hcs => ?_⟩
  obtain ⟨s₁, hfirst, -⟩ := exists_scan_prefix (hcs ▸ h)
  rw [scan_frame hfirst outer]
  simp [houter]

/-! ### Operands -/

/-- A closed text without a blank outside of brackets and quotes. -/
def Operand (t : String) : Prop := tightScan ⟨[], .code⟩ t.toList = some ⟨[], .code⟩

instance : DecidablePred Operand := fun t =>
  inferInstanceAs (Decidable (tightScan ⟨[], .code⟩ t.toList = some ⟨[], .code⟩))

theorem operand_iff : Operand t ↔ Closed t ∧
    ∀ first rest, t.toList = first ++ ' ' :: rest → scan ⟨[], .code⟩ first ≠ some ⟨[], .code⟩ :=
  tightScan_eq_some_iff

theorem Operand.closed (h : Operand t) : Closed t := (operand_iff.1 h).1

/-- Wherever an operand is put, its blanks stand deeper than that place. -/
theorem Operand.scan_blank (h : Operand t) (awaited : List Char)
    (ht : t.toList = first ++ ' ' :: rest) :
    ∃ opened place, scan ⟨awaited, .code⟩ first = some ⟨opened ++ awaited, place⟩ ∧
      (opened ≠ [] ∨ place ≠ .code) := by
  obtain ⟨hclosed, hblank⟩ := operand_iff.1 h
  obtain ⟨opened, place, hfirst⟩ := hclosed.scan_prefix [] ht
  rw [List.append_nil] at hfirst
  refine ⟨opened, place, scan_frame hfirst awaited, ?_⟩
  by_cases hplace : place = .code
  · refine .inl fun hopened => hblank first rest ht ?_
    rw [hfirst, hopened, hplace]
  · exact .inr hplace

/-- A closed text in brackets is an operand. -/
theorem Closed.operand {before after : String} {awaited : List Char} (ht : Closed t)
    (hawaited : awaited ≠ [])
    (hbefore : tightScan ⟨[], .code⟩ before.toList = some ⟨awaited, .code⟩)
    (hafter : tightScan ⟨awaited, .code⟩ after.toList = some ⟨[], .code⟩) :
    Operand (before ++ t ++ after) := by
  have hinner : tightScan ⟨awaited, .code⟩ t.toList = some ⟨awaited, .code⟩ :=
    tightScan_frame ht hawaited
  rw [Operand, String.toList_append, String.toList_append, tightScan_append, tightScan_append,
    hbefore, Option.bind_some, hinner, Option.bind_some, hafter]

theorem operand_quote (t : String) : Operand (quote t) := by
  refine operand_iff.2 ⟨closed_quote t, fun first rest h hfirst => ?_⟩
  cases first with
  | nil => simp [toList_quote] at h
  | cons c first =>
    obtain ⟨place, hplace, hscan⟩ := exists_scan_quote h (by simp) (by simp) []
    rw [hscan] at hfirst
    exact hplace (Scan.mk.inj (Option.some.inj hfirst)).2

example : Operand "f(a, 'b c')[1:2]" ∧ ¬ Operand "[1] * 3" ∧ Operand "([1] * 3)[::-1]" := by decide

/-! ### Bare texts -/

/-- A character that a scan passes by and that is no blank. -/
def isBare (c : Char) : Bool := isInert c && c != ' '

/-- A text of characters that a scan passes by, without blanks. -/
def Bare (t : String) : Prop := t.toList.all isBare = true

instance : DecidablePred Bare := fun t => inferInstanceAs (Decidable (t.toList.all isBare = true))

theorem bare_ofList : Bare (String.ofList cs) ↔ cs.all isBare = true := by
  rw [Bare, String.toList_ofList]

theorem Bare.append (ht : Bare t) (hu : Bare u) : Bare (t ++ u) := by
  rw [Bare, String.toList_append, List.all_append, ht, hu]
  rfl

theorem Bare.inert (h : Bare t) : Inert t := by
  simp only [Bare, Inert, List.all_eq_true, isBare, Bool.and_eq_true] at h ⊢
  exact fun c hc => (h c hc).1

theorem Bare.operand (h : Bare t) : Operand t := by
  refine operand_iff.2 ⟨h.inert.closed, fun first rest ht => ?_⟩
  have hblank := List.all_eq_true.1 h ' ' (by simp [ht])
  exact absurd hblank (by decide)

/-! ### Operands on one line -/

/-- An operand on one line. -/
structure Solid (t : String) : Prop where
  oneLine : OneLine t
  operand : Operand t

theorem Solid.sealed (h : Solid t) : Sealed t := ⟨h.oneLine, h.operand.closed⟩

theorem Bare.solid (h : Bare t) : Solid t := ⟨h.inert.sealed.oneLine, h.operand⟩

theorem solid_quote (t : String) : Solid (quote t) := ⟨oneLine_quote t, operand_quote t⟩

/-- A sealed text in brackets is an operand on one line. -/
theorem Sealed.solid {before after : String} (ht : Sealed t) (closing : Char)
    (hlines : OneLine before ∧ OneLine after)
    (hbefore : tightScan ⟨[], .code⟩ before.toList = some ⟨[closing], .code⟩)
    (hafter : tightScan ⟨[closing], .code⟩ after.toList = some ⟨[], .code⟩) :
    Solid (before ++ t ++ after) :=
  ⟨(hlines.1.append ht.oneLine).append hlines.2,
    ht.closed.operand (List.cons_ne_nil closing []) hbefore hafter⟩

end NodeFlow.Text
