import Mathlib.Data.List.Chain
import Mathlib.Data.List.TakeWhile
import NodeFlow.Proofs.Code.Identifier

/-!
# The normal form of slugs

The *runs* of a text are what stands between the characters that no slug has, where that is not
empty.  A slug is the runs of the lower case, joined by single underscores (`slug_normal_form`):
marking the gaps puts one underscore between two runs and at most one before the first and behind
the last of them (`exists_markGaps`), and stripping takes these away.  The runs of a slug are the
runs that it was made of (`runs_intercalate`), so that its own slug is itself.
-/

namespace NodeFlow.Text

variable {s : List Char} {c : Char} {parts others : List (List Char)} {piece run : List Char}

/-- What stands between the characters of a text that no slug has. -/
def pieces (s : List Char) : List (List Char) := s.splitOnP fun c => !isSlugChar c

/-- The longest stretches of slug characters in a text, in order. -/
def runs (s : List Char) : List (List Char) := (pieces s).filter (!·.isEmpty)

/-- Slug characters, at least one of them. -/
def IsRun (run : List Char) : Prop := run ≠ [] ∧ ∀ c ∈ run, isSlugChar c = true

/-! ### Pieces and runs -/

theorem isSlugChar_underscore : isSlugChar '_' = false := by decide

theorem pieces_cons_of_gap (hc : isSlugChar c = false) : pieces (c :: s) = [] :: pieces s := by
  rw [pieces, List.splitOnP_cons_eq_if_modifyHead, hc]
  rfl

/-- A slug character belongs to the first piece. -/
theorem pieces_cons (hc : isSlugChar c = true) (h : pieces s = piece :: others) :
    pieces (c :: s) = (c :: piece) :: others := by
  rw [pieces] at h ⊢
  rw [List.splitOnP_cons_eq_if_modifyHead, hc, h]
  rfl

theorem exists_pieces (s : List Char) : ∃ piece others, pieces s = piece :: others :=
  List.exists_cons_of_ne_nil (List.splitOnP_ne_nil _ s)

theorem isSlugChar_of_mem_pieces (h : piece ∈ pieces s) : ∀ c ∈ piece, isSlugChar c = true := by
  induction s generalizing piece with
  | nil =>
    obtain rfl := List.mem_singleton.1 h
    exact nofun
  | cons d rest ih =>
    by_cases hd : isSlugChar d = true
    · obtain ⟨first, others, hrest⟩ := exists_pieces rest
      rw [pieces_cons hd hrest] at h
      rcases List.mem_cons.1 h with rfl | h
      · exact List.forall_mem_cons.2 ⟨hd, ih (hrest ▸ List.mem_cons_self)⟩
      · exact ih (hrest ▸ List.mem_cons_of_mem first h)
    · rw [Bool.not_eq_true] at hd
      rw [pieces_cons_of_gap hd] at h
      rcases List.mem_cons.1 h with rfl | h
      · exact nofun
      · exact ih h

theorem isRun_of_mem_runs (h : run ∈ runs s) : IsRun run := by
  obtain ⟨hmem, hne⟩ := List.mem_filter.1 h
  exact ⟨by simpa using hne, isSlugChar_of_mem_pieces hmem⟩

theorem runs_cons_of_gap (hc : isSlugChar c = false) : runs (c :: s) = runs s := by
  rw [runs, pieces_cons_of_gap hc]
  rfl

/-! ### Runs joined by underscores -/

theorem intercalate_cons_char (c : Char) (piece : List Char) (others : List (List Char)) :
    ['_'].intercalate ((c :: piece) :: others) = c :: ['_'].intercalate (piece :: others) := by
  cases others with
  | nil => simp
  | cons next rest => simp [List.intercalate_cons_cons]

/-- A text that is made of runs has these runs. -/
theorem runs_intercalate (h : ∀ run ∈ parts, IsRun run) :
    runs (['_'].intercalate parts) = parts := by
  induction parts with
  | nil => rfl
  | cons run rest ih =>
    obtain ⟨⟨hne, hall⟩, hrest⟩ := List.forall_mem_cons.1 h
    have hkept (others : List (List Char)) :
        (run :: others).filter (!·.isEmpty) = run :: others.filter (!·.isEmpty) :=
      List.filter_cons_of_pos (by simpa using hne)
    have hpiece : ∀ c ∈ run, (!isSlugChar c) = false := fun c hc => by rw [hall c hc]; rfl
    cases rest with
    | nil => rw [List.intercalate_singleton, runs, pieces, List.splitOnP_eq_singleton hpiece, hkept,
        List.filter_nil]
    | cons next others =>
      rw [List.intercalate_cons_cons, List.append_assoc, List.singleton_append, runs, pieces,
        List.splitOnP_append_cons_of_forall_mem hpiece '_' (by decide), hkept]
      exact congrArg (run :: ·) (ih hrest)

theorem head?_intercalate (h : ∀ run ∈ parts, IsRun run) :
    ∀ c ∈ (['_'].intercalate parts).head?, isSlugChar c = true := by
  cases parts with
  | nil => exact nofun
  | cons run rest =>
    obtain ⟨hne, hall⟩ := h run List.mem_cons_self
    obtain ⟨first, run, rfl⟩ := List.exists_cons_of_ne_nil hne
    rw [intercalate_cons_char]
    intro c hc
    obtain rfl := Option.some.inj hc
    exact hall _ List.mem_cons_self

theorem getLast?_intercalate (h : ∀ run ∈ parts, IsRun run) :
    ∀ c ∈ (['_'].intercalate parts).getLast?, isSlugChar c = true := by
  induction parts with
  | nil => exact nofun
  | cons run rest ih =>
    obtain ⟨hrun, hrest⟩ := List.forall_mem_cons.1 h
    cases rest with
    | nil =>
      rw [List.intercalate_singleton]
      exact fun c hc => hrun.2 c (List.mem_of_getLast? hc)
    | cons next others =>
      have hne : ['_'].intercalate (next :: others) ≠ [] := by
        obtain ⟨first, next, rfl⟩ := List.exists_cons_of_ne_nil (hrest next List.mem_cons_self).1
        rw [intercalate_cons_char]
        exact List.cons_ne_nil _ _
      rw [List.intercalate_cons_cons, List.getLast?_append_of_ne_nil _ hne]
      exact ih hrest

/-- Of two neighbours one is a slug character. -/
theorem isChain_intercalate (h : ∀ run ∈ parts, IsRun run) :
    (['_'].intercalate parts).IsChain fun c d => isSlugChar c = true ∨ isSlugChar d = true := by
  induction parts with
  | nil => exact List.isChain_nil
  | cons run rest ih =>
    obtain ⟨hrun, hrest⟩ := List.forall_mem_cons.1 h
    have hchain : run.IsChain fun c d => isSlugChar c = true ∨ isSlugChar d = true :=
      (List.pairwise_of_forall_mem_list fun c hc d _ => .inl (hrun.2 c hc)).isChain
    cases rest with
    | nil => rwa [List.intercalate_singleton]
    | cons next others =>
      rw [List.intercalate_cons_cons, List.append_assoc, List.singleton_append]
      refine List.isChain_append.2 ⟨hchain, List.isChain_cons.2 ⟨?_, ih hrest⟩, ?_⟩
      · exact fun d hd => .inr (head?_intercalate hrest d hd)
      · exact fun c hc _ _ => .inl (hrun.2 c (List.mem_of_getLast? hc))

/-! ### Marking the gaps -/

/-- Marked, a text is its first piece and the runs of the others, joined by underscores, and
possibly underscores behind them.  Where a gap goes on that is marked already, it is the runs
alone. -/
theorem markGaps_eq (s : List Char) :
    (∃ behind, (∀ c ∈ behind, c = '_') ∧ markGaps true s = ['_'].intercalate (runs s) ++ behind) ∧
    ∀ piece others, pieces s = piece :: others → ∃ behind, (∀ c ∈ behind, c = '_') ∧
      markGaps false s = ['_'].intercalate (piece :: others.filter (!·.isEmpty)) ++ behind := by
  induction s with
  | nil =>
    refine ⟨⟨[], nofun, rfl⟩, ?_⟩
    intro piece others h
    obtain ⟨rfl, rfl⟩ := List.cons.inj h
    exact ⟨[], nofun, rfl⟩
  | cons c s ih =>
    obtain ⟨⟨behind, hbehind, hmarked⟩, ih⟩ := ih
    by_cases hc : isSlugChar c = true
    · obtain ⟨piece, others, hpieces⟩ := exists_pieces s
      obtain ⟨rest, hrest, hfalse⟩ := ih piece others hpieces
      have hmark (inGap : Bool) : markGaps inGap (c :: s) =
          ['_'].intercalate ((c :: piece) :: others.filter (!·.isEmpty)) ++ rest := by
        rw [markGaps, if_pos hc, hfalse, intercalate_cons_char, List.cons_append]
      refine ⟨⟨rest, hrest, ?_⟩, ?_⟩
      · rw [hmark, runs, pieces_cons hc hpieces]
        rfl
      · intro piece' others' h
        obtain ⟨rfl, rfl⟩ := List.cons.inj ((pieces_cons hc hpieces).symm.trans h)
        exact ⟨rest, hrest, hmark false⟩
    · rw [Bool.not_eq_true] at hc
      refine ⟨⟨behind, hbehind, ?_⟩, ?_⟩
      · rw [markGaps, hc, if_neg Bool.false_ne_true, if_pos rfl, runs_cons_of_gap hc]
        exact hmarked
      · intro piece others h
        obtain ⟨rfl, rfl⟩ := List.cons.inj ((pieces_cons_of_gap hc).symm.trans h)
        rw [markGaps, hc, if_neg Bool.false_ne_true, if_neg Bool.false_ne_true, hmarked, ← runs]
        -- the gap stands before the first run, or behind all of them
        cases runs s with
        | nil => exact ⟨'_' :: behind, List.forall_mem_cons.2 ⟨rfl, hbehind⟩, rfl⟩
        | cons run others => exact ⟨behind, hbehind, by rw [List.intercalate_cons_cons]; rfl⟩

/-- Marked, a text is its runs, joined by underscores, and possibly underscores around them. -/
theorem exists_markGaps (s : List Char) : ∃ before behind, (∀ c ∈ before, c = '_') ∧
    (∀ c ∈ behind, c = '_') ∧
    markGaps false s = before ++ ['_'].intercalate (runs s) ++ behind := by
  obtain ⟨piece, others, hpieces⟩ := exists_pieces s
  obtain ⟨behind, hbehind, hmarked⟩ := (markGaps_eq s).2 piece others hpieces
  rw [runs, hpieces]
  cases piece with
  | cons c piece => exact ⟨[], behind, nofun, hbehind, hmarked⟩
  | nil =>
    change ∃ before behind, _ ∧ _ ∧
      _ = before ++ ['_'].intercalate (others.filter (!·.isEmpty)) ++ behind
    cases hruns : others.filter (!·.isEmpty) with
    | nil =>
      rw [hruns] at hmarked
      exact ⟨[], behind, nofun, hbehind, hmarked⟩
    | cons run rest =>
      rw [hruns, List.intercalate_cons_cons] at hmarked
      exact ⟨['_'], behind, by simp, hbehind, hmarked⟩

/-! ### Stripping -/

theorem dropWhile_eq_self {p : Char → Bool} (h : ∀ c ∈ s.head?, p c = false) :
    s.dropWhile p = s := by
  cases s with
  | nil => rfl
  | cons c s => exact List.dropWhile_cons_of_neg (by simp [h c rfl])

/-- Stripping leaves a text that neither begins nor ends with a character to strip. -/
theorem stripOf_append {p : Char → Bool} {before behind : List Char}
    (hbefore : ∀ c ∈ before, p c = true) (hbehind : ∀ c ∈ behind, p c = true)
    (hhead : ∀ c ∈ s.head?, p c = false) (hlast : ∀ c ∈ s.getLast?, p c = false) :
    stripOf p (before ++ s ++ behind) = s := by
  rw [stripOf, List.append_assoc, List.dropWhile_append_of_pos hbefore]
  cases s with
  | nil =>
    rw [List.nil_append, List.dropWhile_eq_nil_iff.2 hbehind]
    rfl
  | cons c s =>
    have hfirst : (c :: s ++ behind).dropWhile p = c :: s ++ behind := dropWhile_eq_self hhead
    rw [hfirst, List.reverse_append,
      List.dropWhile_append_of_pos fun c hc => hbehind c (List.mem_reverse.1 hc),
      dropWhile_eq_self (by rwa [List.head?_reverse]), List.reverse_reverse]

theorem slugChars_eq (s : List Char) : slugChars s = ['_'].intercalate (runs (lower s)) := by
  have hruns : ∀ run ∈ runs (lower s), IsRun run := fun _ => isRun_of_mem_runs
  have hmark : ∀ c, isSlugChar c = true → (c == '_') = false := by
    intro c hc
    rw [beq_eq_false_iff_ne]
    rintro rfl
    rw [isSlugChar_underscore] at hc
    cases hc
  obtain ⟨before, behind, hbefore, hbehind, hmarked⟩ := exists_markGaps (lower s)
  rw [slugChars, hmarked]
  exact stripOf_append (fun c hc => by rw [hbefore c hc]; rfl) (fun c hc => by rw [hbehind c hc]; rfl)
    (fun c hc => hmark c (head?_intercalate hruns c hc))
    fun c hc => hmark c (getLast?_intercalate hruns c hc)

/-! ### Slugs of slugs -/

theorem toNat_of_isSlugChar (h : isSlugChar c = true) : c.toNat < 128 := by
  rw [isSlugChar, Bool.or_eq_true] at h
  rcases h with h | h
  · have hz : c.val ≤ 122 := of_decide_eq_true (Bool.and_eq_true_iff.1 h).2
    exact Nat.lt_of_le_of_lt hz (by decide)
  · have hnine : c.val ≤ 57 := of_decide_eq_true (Bool.and_eq_true_iff.1 h).2
    exact Nat.lt_of_le_of_lt hnine (by decide)

/-- No character of a slug has a lower case of its own. -/
theorem lowerChar_eq_self (h : isSlugChar c = true ∨ c = '_') : lowerChar c = c := by
  have hall : ∀ n < 128, isSlugChar (.ofNat n) = true → lowerChar (.ofNat n) = .ofNat n := by
    decide +kernel
  rcases h with h | rfl
  · have hc := hall c.toNat (toNat_of_isSlugChar h)
    rw [Char.ofNat_toNat] at hc
    exact hc h
  · decide +kernel

theorem lowerAfter_eq_self {before : List Char} (h : ∀ c ∈ s, isSlugChar c = true ∨ c = '_') :
    lowerAfter before s = s := by
  induction s generalizing before with
  | nil => rfl
  | cons c s ih =>
    obtain ⟨hc, hs⟩ := List.forall_mem_cons.1 h
    have hdotted : c ≠ 'İ' := by
      rintro rfl
      exact absurd hc (by decide)
    have hsigma : c ≠ 'Σ' := by
      rintro rfl
      exact absurd hc (by decide)
    rw [lowerAfter, if_neg hdotted, if_neg hsigma, lowerChar_eq_self hc, ih hs]
    rfl

theorem toList_slug (s : String) :
    (slug s).toList = ['_'].intercalate (runs (lower s.toList)) := by
  rw [slug, String.toList_ofList, slugChars_eq]

theorem runs_slug (s : String) : runs (slug s).toList = runs (lower s.toList) := by
  rw [toList_slug]
  exact runs_intercalate fun _ => isRun_of_mem_runs

theorem slug_slug (s : String) : slug (slug s) = slug s := by
  have hlower : lower (slug s).toList = (slug s).toList :=
    lowerAfter_eq_self fun c hc => mem_slug hc
  rw [← String.toList_inj, toList_slug, hlower, runs_slug, ← toList_slug]

theorem slug_eq_empty_iff (s : String) : slug s = "" ↔ runs (lower s.toList) = [] := by
  rw [← runs_slug]
  constructor
  · intro h
    rw [h]
    rfl
  · intro h
    rw [← String.toList_inj, toList_slug, ← runs_slug, h]
    rfl

theorem not_infix_underscores (h : ∀ run ∈ parts, IsRun run) :
    ¬ ['_', '_'] <:+: ['_'].intercalate parts := by
  rintro ⟨before, behind, hdouble⟩
  have hchain := isChain_intercalate h
  rw [← hdouble] at hchain
  have hpair := (List.isChain_append.1 (List.isChain_append.1 hchain).1).2.1
  simp [isSlugChar_underscore] at hpair

/-- **Slugs are in normal form.**  A slug is empty, or it is the longest stretches of letters `a`–`z`
and digits in the lower case of the text, in order and joined by single underscores.  It neither
begins nor ends with an underscore, nor do two of them follow each other.  A slug is its own slug,
and behind an underscore it is an identifier. -/
theorem slug_normal_form (s : String) :
    (slug s = "" ↔ runs (lower s.toList) = []) ∧
    (slug s).toList = ['_'].intercalate (runs (lower s.toList)) ∧
    (∀ run ∈ runs (lower s.toList), run ≠ [] ∧ ∀ c ∈ run, isSlugChar c = true) ∧
    ('_' ∉ (slug s).toList.head? ∧ '_' ∉ (slug s).toList.getLast? ∧
      ¬ ['_', '_'] <:+: (slug s).toList) ∧
    runs (slug s).toList = runs (lower s.toList) ∧
    slug (slug s) = slug s ∧
    Code.isIdentifier ("_" ++ slug s) = true := by
  have hruns : ∀ run ∈ runs (lower s.toList), IsRun run := fun _ => isRun_of_mem_runs
  refine ⟨slug_eq_empty_iff s, toList_slug s, hruns, ?_, runs_slug s, slug_slug s,
    Code.isIdentifier_underscore (slugText_slug s)⟩
  rw [toList_slug]
  refine ⟨fun h => ?_, fun h => ?_, not_infix_underscores hruns⟩
  · exact absurd (head?_intercalate hruns '_' h) (by decide)
  · exact absurd (getLast?_intercalate hruns '_' h) (by decide)

example : runs "--gr\u00f6\u00dfe 2!".toList = ["gr".toList, "e".toList, "2".toList] := by
  decide +kernel

end NodeFlow.Text
