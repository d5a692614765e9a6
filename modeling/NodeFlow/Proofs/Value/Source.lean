import NodeFlow.Proofs.Outcome
import NodeFlow.Proofs.Text.Decimal
import NodeFlow.Proofs.Text.Operand
import NodeFlow.Value.Constant

/-!
# Literals are operands

The literal of a value is an operand on one line, with all its brackets and quotes closed, whatever
texts are in it: these are quoted, and all else is digits, words and brackets in pairs, with blanks
inside of brackets only (`Value.solid_literal`).  So is what is written of a constant under any
declared type (`Constant.solid_source`).
-/

namespace NodeFlow

open Text

/-! ### Numbers -/

theorem isBare_of_isDigit {c : Char} (hc : c.isDigit = true) : isBare c = true := by
  have hall : ∀ d ∈ ['\n', '\'', '(', ')', '[', ']', '\x7b', '\x7d', ' '], c ≠ d := by
    rintro d hd rfl
    simp only [List.mem_cons, List.not_mem_nil, or_false] at hd
    rcases hd with rfl | rfl | rfl | rfl | rfl | rfl | rfl | rfl | rfl <;>
      exact absurd hc (by decide)
  simpa [isBare, isInert, and_assoc] using hall

theorem isBare_toDigits (n : Nat) : (Nat.toDigits 10 n).all isBare = true :=
  List.all_eq_true.2 fun c h => isBare_of_isDigit (isDigit_toDigits n c h)

theorem bare_toString_int (n : Int) : Bare (toString n) := by
  rw [Bare, toList_toString_int]
  split
  · exact isBare_toDigits _
  · rw [List.all_cons, isBare_toDigits]
    rfl

theorem Shortest.isBare_normal (d : Shortest.Decimal) : d.normal.1.all isBare = true := by
  refine List.all_eq_true.2 fun c h => ?_
  have hdigits := (List.dropWhile_suffix _).subset (List.mem_reverse.1 h)
  exact List.all_eq_true.1 (isBare_toDigits _) c (List.mem_reverse.1 hdigits)

namespace NumberLayout

theorem bare_exponentText (exponent : Int) : Bare (exponentText exponent) := by
  have sign : Bare (if exponent < 0 then "-" else "+") := by split <;> decide
  have zero : Bare (if (Nat.toDigits 10 exponent.natAbs).length < 2 then "0" else "") := by
    split <;> decide
  refine (sign.append zero).append ?_
  exact bare_ofList.2 (isBare_toDigits _)

theorem bare_decimalText (layout : NumberLayout) {digits : List Char}
    (h : digits.all isBare = true) (leading : Int) :
    Bare (layout.decimalText digits leading) := by
  have zeros (n : Nat) : (List.replicate n '0').all isBare = true :=
    List.all_eq_true.2 fun _ hc => List.eq_of_mem_replicate hc ▸ rfl
  have point : isBare '.' = true := rfl
  have zero : isBare '0' = true := rfl
  unfold decimalText
  split
  · split
    · rw [bare_ofList, List.all_append, List.all_cons, List.all_cons, zeros, h, point, zero]
      rfl
    · have htake : (digits.take (leading.toNat + 1)).all isBare = true :=
        List.all_eq_true.2 fun c hc => List.all_eq_true.1 h c (List.mem_of_mem_take hc)
      have hdrop : (digits.drop (leading.toNat + 1)).all isBare = true :=
        List.all_eq_true.2 fun c hc => List.all_eq_true.1 h c (List.mem_of_mem_drop hc)
      rw [bare_ofList, List.all_append, List.all_append, List.all_cons, htake, zeros, point]
      split
      · rfl
      · rw [hdrop]
        rfl
  · refine (Bare.append ?_ (by decide)).append (bare_exponentText leading)
    rw [bare_ofList]
    split
    · rfl
    · next d =>
      split
      · rw [List.all_cons, List.all_nil, Bool.and_true] at h
        rw [List.all_cons, h]
        rfl
      · exact h
    · next d rest _ =>
      rw [List.all_cons, Bool.and_eq_true] at h
      rw [List.all_cons, List.all_cons, h.1, h.2, point]
      rfl

theorem bare_text {layout : NumberLayout} (hnan : Bare layout.nan)
    (hinfinity : Bare layout.infinity) (x : Float) : Bare (layout.text x) := by
  have sign (negative : Bool) : Bare (if negative then "-" else "") := by split <;> decide
  rw [text]
  split
  · exact hnan
  · exact (sign _).append hinfinity
  · dsimp only
    split
    · exact (sign _).append (by decide)
    · exact (sign _).append (bare_decimalText layout (Shortest.isBare_normal _) _)

end NumberLayout

theorem Number.bare_text (x : Number) : Bare x.text := by
  cases x with
  | int n => exact bare_toString_int n
  | float x => exact NumberLayout.bare_text (by decide) (by decide) x

theorem Number.solid_literal (x : Number) : Solid x.literal := by
  cases x with
  | int n => exact (bare_toString_int n).solid
  | float x =>
    rw [literal]
    split
    · exact (Number.float x).bare_text.solid
    · exact (sealed_quote _).solid ')' (by decide) (by decide) (by decide)

/-! ### Values -/

theorem solid_none : Solid "None" := Bare.solid (by decide)

theorem solid_truth (b : Bool) : Solid (if b then "True" else "False") :=
  Bare.solid (by cases b <;> decide)

theorem sealed_comma : Sealed ", " := Inert.sealed (by decide)

theorem Atom.solid_literal (a : Atom) : Solid a.literal := by
  cases a with
  | null => exact solid_none
  | bool b => exact solid_truth b
  | num x => exact x.solid_literal
  | str | broken | bytes | date | moment => exact solid_quote _

mutual

theorem Value.solid_literal : (v : Value) → Solid v.literal
  | .atom a => a.solid_literal
  | .list items => by
    rw [Value.literal]
    have hitems := sealed_comma.intercalate (Value.sealed_literalItems items)
    exact hitems.solid ']' (by decide) (by decide) (by decide)
  | .pair v w => by
    rw [Value.literal]
    have hparts := (v.solid_literal.sealed.append sealed_comma).append w.solid_literal.sealed
    have hpair : Solid ("[" ++ (v.literal ++ ", " ++ w.literal) ++ "]") :=
      hparts.solid ']' (by decide) (by decide) (by decide)
    simpa only [String.append_assoc] using hpair
  | .set members => solid_quote _
  | .record entries => by
    rw [Value.literal]
    have hentries := sealed_comma.intercalate (Value.sealed_literalEntries entries)
    exact hentries.solid '\x7d' (by decide) (by decide) (by decide)

theorem Value.sealed_literalItems :
    (items : List Value) → ∀ t ∈ Value.literalItems items, Sealed t
  | [] => nofun
  | v :: rest => by
    rw [Value.literalItems, List.forall_mem_cons]
    exact ⟨v.solid_literal.sealed, Value.sealed_literalItems rest⟩

theorem Value.sealed_literalEntries :
    (entries : List (Atom × Value)) → ∀ t ∈ Value.literalEntries entries, Sealed t
  | [] => nofun
  | (k, v) :: rest => by
    rw [Value.literalEntries, List.forall_mem_cons]
    have hcolon : Sealed ": " := Inert.sealed (by decide)
    have hentry := (k.solid_literal.sealed.append hcolon).append v.solid_literal.sealed
    exact ⟨hentry, Value.sealed_literalEntries rest⟩

end

/-! ### What is written -/

theorem Spelling.eq_ok_iff {isWritable : Bool} {s text : String} :
    Spelling.ofText isWritable s = .ok text ↔ isWritable = true ∧ s = text := by
  cases isWritable <;> simp [ofText]

theorem Spelling.eq_error_iff {isWritable : Bool} {s : String} {e : TooManyDigits} :
    Spelling.ofText isWritable s = .error e ↔ isWritable = false := by
  cases isWritable <;> simp [ofText]

@[simp] theorem Spelling.ofText_true (s : String) : Spelling.ofText true s = .ok s :=
  eq_ok_iff.2 ⟨rfl, rfl⟩

namespace Value

variable {v : Value}

theorem spelled_of_isWritable (h : v.isWritable = true) : v.spelled = .ok v.text := by
  rw [spelled, h, Spelling.ofText_true]

theorem source_of_isWritable (h : v.isWritable = true) : v.source = .ok v.literal := by
  rw [source, h, Spelling.ofText_true]

theorem quoted_of_isWritable (h : v.isWritable = true) : v.quoted = .ok (Text.quote v.text) := by
  rw [quoted, spelled_of_isWritable h]
  rfl

end Value

theorem Number.literal_of_source {x : Number} {text : String} (h : x.source = .ok text) :
    x.literal = text :=
  (Spelling.eq_ok_iff.1 h).2

theorem Value.solid_source {v : Value} {text : String} (h : v.source = .ok text) : Solid text := by
  obtain ⟨-, rfl⟩ := Spelling.eq_ok_iff.1 h
  exact v.solid_literal

theorem Value.solid_quoted {v : Value} {text : String} (h : v.quoted = .ok text) : Solid text := by
  obtain ⟨plain, -, rfl⟩ := Outcome.map_eq_ok_iff.1 h
  exact solid_quote plain

theorem Constant.solid_source {dtype : Dtype} {value : Value} {text : String}
    (h : Constant.source dtype value = .ok text) : Solid text := by
  unfold Constant.source at h
  split at h
  · exact Except.ok.inj h ▸ solid_none
  · split at h
    · split at h
      · exact Value.solid_source (v := .num _) h
      · exact Value.solid_quoted h
    · exact Except.ok.inj h ▸ solid_truth _
    · split at h <;> exact Value.solid_source h
    · exact Value.solid_source h
    · exact Value.solid_quoted h
    · exact Value.solid_quoted h

end NodeFlow
