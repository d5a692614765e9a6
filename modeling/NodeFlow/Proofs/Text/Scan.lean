import NodeFlow.Proofs.Text.OneLine
import NodeFlow.Proofs.Text.Quoted

/-!
# Closed texts

A scan goes through a text from left to right, skips what is inside quotes, and keeps the brackets
that are still to be closed.  It fails at a bracket that closes another one than the last opened, and
at a line end inside of quotes or outside of brackets.  A text is closed if the scan ends as it began
(`Closed`).  Where a closed text stands among brackets, the scan never sees those
(`Closed.scan_prefix`), and quoted texts are closed whatever is in them (`closed_quote`).
-/

namespace NodeFlow.Text

/-! ### Scans -/

/-- Where a scan stands, and the closing brackets it waits for, the next one first. -/
structure Scan where
  awaited : List Char
  place : Place
deriving DecidableEq

/-- The closing bracket for an opening one. -/
def closing? (c : Char) : Option Char :=
  match c with
  | '(' => some ')'
  | '[' => some ']'
  | '\x7b' => some '\x7d'
  | _ => none

/-- Whether a character is a closing bracket. -/
def isClosing (c : Char) : Bool := c ∈ [')', ']', '\x7d']

/-- The scan behind a character, unless it fails there. -/
def Scan.step (s : Scan) (c : Char) : Option Scan :=
  if s.place ≠ .code then if c = '\n' then none else some ⟨s.awaited, s.place.next c⟩
  else if c = '\n' ∧ s.awaited = [] then none
  else if isClosing c then
    if s.awaited.head? = some c then some ⟨s.awaited.tail, .code⟩ else none
  else some ⟨(closing? c).toList ++ s.awaited, s.place.next c⟩

/-- The scan behind some characters, unless it fails at one of them. -/
def scan (s : Scan) (cs : List Char) : Option Scan := cs.foldlM Scan.step s

variable {s s' : Scan} {cs first rest : List Char}

theorem scan_append : scan s (first ++ rest) = (scan s first).bind (scan · rest) :=
  List.foldlM_append

theorem scan_cons {c : Char} : scan s (c :: cs) = (s.step c).bind (scan · cs) :=
  List.foldlM_cons

/-- Brackets around the ones that a scan waits for do not change it. -/
theorem Scan.step_frame {c : Char} (h : s.step c = some s') (outer : List Char) :
    Scan.step ⟨s.awaited ++ outer, s.place⟩ c = some ⟨s'.awaited ++ outer, s'.place⟩ := by
  unfold Scan.step at h ⊢
  dsimp only
  by_cases hplace : s.place ≠ .code
  · rw [if_pos hplace] at h ⊢
    by_cases hline : c = '\n'
    · rw [if_pos hline] at h
      cases h
    · rw [if_neg hline] at h ⊢
      obtain rfl := Option.some.inj h
      rfl
  · rw [if_neg hplace] at h ⊢
    by_cases hline : c = '\n' ∧ s.awaited = []
    · rw [if_pos hline] at h
      cases h
    · have hline' : ¬ (c = '\n' ∧ s.awaited ++ outer = []) :=
        fun h => hline ⟨h.1, (List.append_eq_nil_iff.1 h.2).1⟩
      rw [if_neg hline] at h
      rw [if_neg hline']
      by_cases hclosing : isClosing c = true
      · rw [if_pos hclosing] at h ⊢
        by_cases hhead : s.awaited.head? = some c
        · rw [if_pos hhead] at h
          obtain rfl := Option.some.inj h
          obtain ⟨others, hothers⟩ := List.head?_eq_some_iff.1 hhead
          simp [hothers]
        · rw [if_neg hhead] at h
          cases h
      · rw [if_neg hclosing] at h ⊢
        obtain rfl := Option.some.inj h
        simp

theorem scan_frame (h : scan s cs = some s') (outer : List Char) :
    scan ⟨s.awaited ++ outer, s.place⟩ cs = some ⟨s'.awaited ++ outer, s'.place⟩ := by
  induction cs generalizing s with
  | nil =>
    obtain rfl := Option.some.inj h
    rfl
  | cons c cs ih =>
    rw [scan_cons] at h
    obtain ⟨s₁, hstep, hrest⟩ := Option.bind_eq_some_iff.1 h
    rw [scan_cons, Scan.step_frame hstep outer]
    exact ih hrest

theorem exists_scan_prefix (h : scan s (first ++ rest) = some s') :
    ∃ s₁, scan s first = some s₁ ∧ scan s₁ rest = some s' := by
  rw [scan_append] at h
  exact Option.bind_eq_some_iff.1 h

/-- A line ends inside of brackets and outside of quotes. -/
theorem exists_scan_newline (h : scan s (first ++ '\n' :: rest) = some s') :
    ∃ awaited, awaited ≠ [] ∧ scan s first = some ⟨awaited, .code⟩ := by
  obtain ⟨⟨awaited, place⟩, hfirst, hrest⟩ := exists_scan_prefix h
  rw [scan_cons] at hrest
  obtain ⟨s₁, hstep, -⟩ := Option.bind_eq_some_iff.1 hrest
  unfold Scan.step at hstep
  by_cases hplace : place = .code
  · by_cases hawaited : awaited = []
    · simp [hplace, hawaited] at hstep
    · exact ⟨awaited, hawaited, hplace ▸ hfirst⟩
  · simp [hplace] at hstep

/-! ### Inside of quotes -/

theorem scan_inside {awaited : List Char} {place : Place} (hline : '\n' ∉ cs)
    (h : ∀ first rest, cs = first ++ rest → rest ≠ [] → first.foldl Place.next place ≠ .code) :
    scan ⟨awaited, place⟩ cs = some ⟨awaited, cs.foldl Place.next place⟩ := by
  induction cs generalizing place with
  | nil => rfl
  | cons c cs ih =>
    have hplace : place ≠ .code := h [] (c :: cs) rfl (List.cons_ne_nil c cs)
    have hstep : Scan.step ⟨awaited, place⟩ c = some ⟨awaited, place.next c⟩ := by
      unfold Scan.step
      rw [if_pos hplace, if_neg (Ne.symm (List.ne_of_not_mem_cons hline))]
    rw [scan_cons, hstep]
    refine ih (List.not_mem_of_not_mem_cons hline) fun first rest hcs hrest => ?_
    exact h (c :: first) rest (congrArg (c :: ·) hcs) hrest

theorem scan_quote {text : List Char} (awaited : List Char)
    (h : text.flatMap quoteChar = first ++ rest) :
    scan ⟨awaited, .code⟩ ('\'' :: first) = some ⟨awaited, first.foldl Place.next .text⟩ := by
  have hline : '\n' ∉ first := fun hmem =>
    lineEnd_notMem_flatMap (.inl rfl) text (h ▸ List.mem_append_left rest hmem)
  rw [scan_cons]
  refine scan_inside hline fun first' rest' hfirst _ => ?_
  rw [hfirst, List.append_assoc] at h
  exact place_flatMap_prefix h

/-- A quoted text does not end before its last quote. -/
theorem exists_scan_quote {t : String} (h : (quote t).toList = first ++ rest) (hfirst : first ≠ [])
    (hrest : rest ≠ []) (awaited : List Char) :
    ∃ place, place ≠ .code ∧ scan ⟨awaited, .code⟩ first = some ⟨awaited, place⟩ := by
  obtain ⟨c, first, rfl⟩ := List.exists_cons_of_ne_nil hfirst
  obtain ⟨more, last, rfl⟩ := (List.eq_nil_or_concat rest).resolve_left hrest
  rw [toList_quote, List.cons_append, List.cons_append, List.concat_eq_append,
    ← List.append_assoc] at h
  obtain ⟨rfl, htail⟩ := List.cons.inj h
  have hinner := (List.append_inj' htail rfl).1
  exact ⟨_, place_flatMap_prefix hinner, scan_quote awaited hinner⟩

/-! ### Closed texts -/

/-- A text in which all brackets and quotes are closed in their order. -/
def Closed (t : String) : Prop := scan ⟨[], .code⟩ t.toList = some ⟨[], .code⟩

instance : DecidablePred Closed := fun t =>
  inferInstanceAs (Decidable (scan ⟨[], .code⟩ t.toList = some ⟨[], .code⟩))

variable {t u : String} {texts : List String}

theorem Closed.scan (h : Closed t) (awaited : List Char) :
    scan ⟨awaited, .code⟩ t.toList = some ⟨awaited, .code⟩ :=
  scan_frame h awaited

/-- A closed text closes no bracket but its own. -/
theorem Closed.scan_prefix (h : Closed t) (awaited : List Char)
    (ht : t.toList = first ++ rest) :
    ∃ opened place, Text.scan ⟨awaited, .code⟩ first = some ⟨opened ++ awaited, place⟩ := by
  rw [Closed, ht] at h
  obtain ⟨⟨opened, place⟩, hfirst, -⟩ := exists_scan_prefix h
  exact ⟨opened, place, scan_frame hfirst awaited⟩

theorem Closed.append (ht : Closed t) (hu : Closed u) : Closed (t ++ u) := by
  rw [Closed, String.toList_append, scan_append, ht]
  exact hu

/-- A closed text stays so between texts that fit together. -/
theorem Closed.between {before after : String} (ht : Closed t) (awaited : List Char)
    (hbefore : Text.scan ⟨[], .code⟩ before.toList = some ⟨awaited, .code⟩)
    (hafter : Text.scan ⟨awaited, .code⟩ after.toList = some ⟨[], .code⟩) :
    Closed (before ++ t ++ after) := by
  rw [Closed, String.toList_append, String.toList_append, scan_append, scan_append, hbefore]
  rw [Option.bind_some, ht.scan, Option.bind_some, hafter]

theorem Closed.intercalate (ht : Closed t) (h : ∀ u ∈ texts, Closed u) :
    Closed (t.intercalate texts) :=
  intercalate_induction (by decide) Closed.append ht h

theorem closed_quote (t : String) : Closed (quote t) := by
  have hinner := scan_quote [] (List.append_nil (t.toList.flatMap quoteChar)).symm
  rw [Closed, toList_quote, scan_append, hinner, place_flatMap]
  rfl

example : Closed "f('a\\'(', [1])" ∧ ¬ Closed "f('a\\')" ∧ ¬ Closed "(]" := by decide

/-! ### Inert texts -/

/-- A character that a scan passes by: no bracket, no quote and no line end. -/
def isInert (c : Char) : Bool := c ∉ ['\n', '\'', '(', ')', '[', ']', '\x7b', '\x7d']

/-- A text that a scan passes by. -/
def Inert (t : String) : Prop := t.toList.all isInert = true

instance : DecidablePred Inert := fun t =>
  inferInstanceAs (Decidable (t.toList.all isInert = true))

theorem Scan.step_inert {c : Char} (hc : isInert c = true) (awaited : List Char) :
    Scan.step ⟨awaited, .code⟩ c = some ⟨awaited, .code⟩ := by
  simp only [isInert, List.mem_cons, List.not_mem_nil, or_false, not_or, decide_eq_true_eq] at hc
  obtain ⟨hline, hquote, h₁, h₂, h₃, h₄, h₅, h₆⟩ := hc
  have hclosing : isClosing c = false := by simp [isClosing, h₂, h₄, h₆]
  have hopening : closing? c = none := by
    unfold closing?
    split
    · exact absurd rfl h₁
    · exact absurd rfl h₃
    · exact absurd rfl h₅
    · rfl
  unfold Scan.step
  simp [hline, hclosing, hopening, Place.next, hquote]

theorem Inert.closed (h : Inert t) : Closed t := by
  unfold Inert at h
  unfold Closed
  generalize t.toList = cs at h
  induction cs with
  | nil => rfl
  | cons c cs ih =>
    rw [List.all_cons, Bool.and_eq_true] at h
    rw [scan_cons, Scan.step_inert h.1]
    exact ih h.2

/-! ### Closed texts on one line -/

/-- A closed text on one line. -/
structure Sealed (t : String) : Prop where
  oneLine : OneLine t
  closed : Closed t

theorem Inert.sealed (h : Inert t) : Sealed t where
  oneLine hmem := absurd (List.all_eq_true.1 h '\n' hmem) (by decide)
  closed := h.closed

theorem sealed_quote (t : String) : Sealed (quote t) := ⟨oneLine_quote t, closed_quote t⟩

theorem Sealed.append (ht : Sealed t) (hu : Sealed u) : Sealed (t ++ u) :=
  ⟨ht.oneLine.append hu.oneLine, ht.closed.append hu.closed⟩

theorem Sealed.intercalate (ht : Sealed t) (h : ∀ u ∈ texts, Sealed u) :
    Sealed (t.intercalate texts) :=
  ⟨ht.oneLine.intercalate fun u hu => (h u hu).oneLine,
    ht.closed.intercalate fun u hu => (h u hu).closed⟩

end NodeFlow.Text
