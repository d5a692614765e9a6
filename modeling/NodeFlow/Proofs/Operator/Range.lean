import NodeFlow.Operator.Aggregate
import NodeFlow.Proofs.Number.Finite

/-!
# Ranges

A range between integers has the terms that lie before the stop, as many as the rounded-up quotient
of the distance by the step, up to the limit (`progression_int`).  Whatever the numbers are, the
terms are sums that lie before the stop, and either there are as many as the limit or the next sum
does not lie before it (`exists_run_of_progression`).
-/

namespace NodeFlow.Operator

variable {stop step x : Number} {limit : Nat} {args : Args}

/-! ### Terms between integers -/

section Integers

variable {s e st : Int}

/-- The number of terms from one integer to before another in steps. -/
def termCount (e st s : Int) : Nat := ⌈((e - s : Int) : ℚ) / st⌉₊

theorem lt_termCount_iff {i : Nat} (hst : st ≠ 0) :
    i < termCount e st s ↔ if 0 < st then s + i * st < e else e < s + i * st := by
  unfold termCount
  rw [Nat.lt_ceil]
  split
  · next hpos =>
    have hpos : (0 : ℚ) < st := Int.cast_pos.2 hpos
    rw [lt_div_iff₀ hpos]
    norm_cast
    omega
  · next hneg =>
    have hneg : (st : ℚ) < 0 := Int.cast_lt_zero.2 (by omega)
    rw [lt_div_iff_of_neg hneg]
    norm_cast
    omega

theorem isBefore_int (x : Int) : isBefore (.int e) (.int st) (.int x) =
    decide (if 0 < st then x < e else e < x) := by
  by_cases hst : 0 < st <;> simp [isBefore, Number.below_int, hst]

theorem termCount_add (hst : st ≠ 0) : termCount e st (s + st) = termCount e st s - 1 := by
  unfold termCount
  have hst : (st : ℚ) ≠ 0 := Int.cast_ne_zero.2 hst
  rw [← Nat.ceil_sub_one]
  congr 1
  push_cast
  field_simp
  ring

/-- Between integers the terms lie in equal steps before the stop, as many as fit in. -/
theorem progression_int (hst : st ≠ 0) (limit : Nat) :
    progression (.int e) (.int st) limit (.int s) =
      .ok ((List.range (min limit (termCount e st s))).map fun (i : Nat) => .int (s + i * st)) := by
  induction limit generalizing s with
  | zero => simp [progression]
  | succ limit ih =>
    have hfirst := lt_termCount_iff (i := 0) (e := e) (s := s) hst
    simp only [Nat.cast_zero, Int.zero_mul, Int.add_zero] at hfirst
    rw [progression, isBefore_int]
    simp only [← hfirst, decide_eq_true_eq]
    split
    · next hpos =>
      -- The first term is the start; the others are those from the next term on.
      have hcount : min (limit + 1) (termCount e st s) =
          min limit (termCount e st (s + st)) + 1 := by
        rw [termCount_add hst]
        omega
      show (progression (.int e) (.int st) limit (.int (s + st))).bind _ = _
      have hterm (i : Nat) : s + st + i * st = s + (i + 1 : Nat) * st := by
        push_cast
        ring
      rw [ih, hcount, List.range_succ_eq_map, List.map_cons, List.map_map]
      simp only [Except.bind, hterm, Function.comp_def, Nat.cast_zero, Int.zero_mul, Int.add_zero]
      rfl
    · next hzero =>
      rw [Nat.eq_zero_of_not_pos hzero]
      rfl

end Integers

/-! ### Terms between any numbers -/

/-- The terms of a range from a number on, with the sum that comes next: each is the sum of the one
before and the step, they lie before the stop, and unless there are as many as the limit the next
sum does not. -/
structure IsRun (stop step : Number) (limit : Nat) (x : Number) (items : List Number)
    (next : Number) : Prop where
  length_le : items.length ≤ limit
  before : ∀ y ∈ items, isBefore stop step y = true
  chain : (items ++ [next]).IsChain fun y z => y.add? step = some z
  head : (items ++ [next]).head? = some x
  ended : items.length < limit → isBefore stop step next = false

theorem IsRun.cons {items : List Number} {next y : Number} (h : IsRun stop step limit y items next)
    (hbefore : isBefore stop step x = true) (hsum : x.add? step = some y) :
    IsRun stop step (limit + 1) x (x :: items) next where
  length_le := Nat.succ_le_succ h.length_le
  before := List.forall_mem_cons.2 ⟨hbefore, h.before⟩
  chain := by
    rw [List.cons_append, List.isChain_cons]
    refine ⟨fun z hz => ?_, h.chain⟩
    rw [h.head] at hz
    obtain rfl := Option.some.inj hz
    exact hsum
  head := rfl
  ended hlength := h.ended (Nat.lt_of_succ_lt_succ hlength)

/-- Two numbers can be added, and the sums so on with the second. -/
def AddsUp (x step : Number) : Prop :=
  (∃ m n, x = .int m ∧ step = .int n) ∨ (∃ f, x.toFloat? = some f) ∧ ∃ g, step.toFloat? = some g

theorem AddsUp.exists_sum (h : AddsUp x step) : ∃ y, x.add? step = some y ∧ AddsUp y step := by
  have hints (m n : Int) : ∃ y, (Number.int m).add? (.int n) = some y ∧ AddsUp y (.int n) :=
    ⟨.int (m + n), rfl, .inl ⟨_, _, rfl, rfl⟩⟩
  rcases h with ⟨m, n, rfl, rfl⟩ | ⟨⟨f, hf⟩, g, hg⟩
  · exact hints m n
  · have hfloat : AddsUp (.float (f + g)) step := .inr ⟨⟨_, rfl⟩, g, hg⟩
    cases x with
    | float _ => exact ⟨_, by simp [Number.add?, Number.combine?, hf, hg], hfloat⟩
    | int m => cases step with
      | float _ => exact ⟨_, by simp [Number.add?, Number.combine?, hf, hg], hfloat⟩
      | int n => exact hints m n

/-- A range ends after at most as many terms as the limit. -/
theorem exists_run_of_progression (stop : Number) (h : AddsUp x step) (limit : Nat) :
    ∃ items next, progression stop step limit x = .ok (items.map .num) ∧
      IsRun stop step limit x items next := by
  induction limit generalizing x with
  | zero => exact ⟨[], x, rfl, Nat.le_refl 0, nofun, .singleton x, rfl, nofun⟩
  | succ limit ih =>
    rw [progression]
    split
    · next hbefore =>
      obtain ⟨y, hsum, hy⟩ := h.exists_sum
      obtain ⟨items, next, hitems, hrun⟩ := ih hy
      refine ⟨x :: items, next, ?_, hrun.cons hbefore hsum⟩
      rw [hsum]
      show (progression stop step limit y).bind _ = _
      rw [hitems]
      rfl
    · next hbefore =>
      refine ⟨[], x, rfl, Nat.zero_le _, nofun, .singleton x, rfl, fun _ => ?_⟩
      simpa using hbefore

/-! ### The operator -/

/-- Asking whether numbers are finite fails only if one of them is too large. -/
theorem allFinite_eq (xs : List Number) :
    (allFinite xs = .error .tooLarge ∧ ∃ x ∈ xs, x.IsTooLarge) ∨
      (allFinite xs = .ok false ∧ ∃ x ∈ xs, x.finite? = some false) ∨
      allFinite xs = .ok true ∧ ∀ x ∈ xs, ¬ x.IsTooLarge := by
  induction xs with
  | nil => exact .inr (.inr ⟨rfl, nofun⟩)
  | cons x xs ih =>
    rw [allFinite]
    cases h : x.finite? with
    | none => exact .inl ⟨rfl, x, List.mem_cons_self, Number.finite?_eq_none_iff.1 h⟩
    | some answer => cases answer with
      | false => exact .inr (.inl ⟨rfl, x, List.mem_cons_self, h⟩)
      | true =>
        have hx : ¬ x.IsTooLarge := by simp [← Number.finite?_eq_none_iff, h]
        simpa [h, hx] using ih

theorem allFinite_int {ns : List Int} (h : ∀ n ∈ ns, n.natAbs < 2 ^ 1024 - 2 ^ 970) :
    allFinite (ns.map .int) = .ok true := by
  induction ns with
  | nil => rfl
  | cons n ns ih =>
    obtain ⟨hn, hns⟩ := List.forall_mem_cons.1 h
    rw [List.map_cons, allFinite, Number.finite?_int, if_pos hn]
    exact ih hns

theorem isZero_int (n : Int) : (Number.int n).isZero = decide (n = 0) := by
  simp only [Number.isZero, Number.equals, Number.compare?]
  rw [Bool.eq_iff_iff]
  simp

theorem eval_range {answer : Bool} (h : allFinite [(args "start").asNumber, (args "stop").asNumber,
    (args "step").numberOr 1] = .ok answer) :
    range.eval args = if !answer || ((args "step").numberOr 1).isZero then .ok (.list []) else
      (progression (args "stop").asNumber ((args "step").numberOr 1) itemLimit
        (args "start").asNumber).map .list := by
  show rangeValue args = _
  unfold rangeValue
  simp only [h]
  rfl

theorem eval_range_int {s e st : Int} (hstart : (args "start").asNumber = .int s)
    (hstop : (args "stop").asNumber = .int e) (hstep : (args "step").numberOr 1 = .int st)
    (hs : s.natAbs < 2 ^ 1024 - 2 ^ 970) (he : e.natAbs < 2 ^ 1024 - 2 ^ 970)
    (hst : st.natAbs < 2 ^ 1024 - 2 ^ 970) :
    range.eval args = .ok (.list (if st = 0 then [] else
      (List.range (min itemLimit (termCount e st s))).map fun (i : Nat) => .int (s + i * st))) := by
  have hfinite : allFinite [.int s, .int e, .int st] = .ok true :=
    @allFinite_int [s, e, st] (List.forall_mem_cons.2 ⟨hs, List.forall_mem_cons.2
      ⟨he, List.forall_mem_singleton.2 hst⟩⟩)
  rw [← hstart, ← hstop, ← hstep] at hfinite
  rw [eval_range hfinite, hstart, hstop, hstep, isZero_int]
  by_cases hzero : st = 0
  · simp [hzero]
  · rw [progression_int hzero]
    simp [hzero, Except.map]

/-- Between integers in the range of doubles a range has the terms at the start and in equal steps
from it, as many as the rounded-up quotient of the distance by the step but not more than the
limit, and none for steps of zero; all of them lie before the stop.  Whatever its arguments are, a
range has terms up to the limit, each the sum of the one before and the step, or none where a
number is not finite or the step is zero.  It fails only for integers too large for a double. -/
theorem range_terms :
    (∀ (args : Args) (s e st : Int), (args "start").asNumber = .int s →
      (args "stop").asNumber = .int e → (args "step").numberOr 1 = .int st →
      s.natAbs < 2 ^ 1024 - 2 ^ 970 → e.natAbs < 2 ^ 1024 - 2 ^ 970 →
      st.natAbs < 2 ^ 1024 - 2 ^ 970 →
      range.eval args = .ok (.list (if st = 0 then [] else
        (List.range (min 10000 ⌈((e - s : Int) : ℚ) / st⌉₊)).map fun (i : Nat) =>
          .int (s + i * st))) ∧
      ∀ i : Nat, i < ⌈((e - s : Int) : ℚ) / st⌉₊ →
        if 0 < st then s + i * st < e else e < s + i * st) ∧
    ∀ args : Args, (range.eval args = .error .tooLarge ∧ ∃ x ∈ [(args "start").asNumber,
        (args "stop").asNumber, (args "step").numberOr 1], x.IsTooLarge) ∨
      ∃ items : List Number, range.eval args = .ok (.list (items.map .num)) ∧
      items.length ≤ 10000 ∧
      ((items = [] ∧ ((∃ x ∈ [(args "start").asNumber, (args "stop").asNumber,
          (args "step").numberOr 1], x.finite? = some false) ∨
          ((args "step").numberOr 1).isZero = true)) ∨
        ∃ next, IsRun (args "stop").asNumber ((args "step").numberOr 1) 10000
        (args "start").asNumber items next) := by
  refine ⟨fun args s e st hstart hstop hstep hs he hst => ⟨?_, fun i hi => ?_⟩, fun args => ?_⟩
  · exact eval_range_int hstart hstop hstep hs he hst
  · by_cases hzero : st = 0
    · simp [hzero] at hi
    · exact (lt_termCount_iff hzero).1 hi
  · rcases allFinite_eq [(args "start").asNumber, (args "stop").asNumber,
      (args "step").numberOr 1] with ⟨herror, hlarge⟩ | ⟨hfinite, hnot⟩ | ⟨hfinite, hnone⟩
    · left
      refine ⟨?_, hlarge⟩
      show rangeValue args = _
      unfold rangeValue
      simp only [herror]
      rfl
    · rw [eval_range hfinite]
      exact .inr ⟨[], rfl, Nat.zero_le _, .inl ⟨rfl, .inl hnot⟩⟩
    · right
      rw [eval_range hfinite]
      by_cases hzero : ((args "step").numberOr 1).isZero = true
      · exact ⟨[], by simp [hzero], Nat.zero_le _, .inl ⟨rfl, .inr hzero⟩⟩
      · have hadds : AddsUp (args "start").asNumber ((args "step").numberOr 1) :=
          .inr ⟨Number.exists_toFloat? (hnone _ (by simp)), Number.exists_toFloat? (hnone _ (by simp))⟩
        obtain ⟨items, next, hitems, hrun⟩ :=
          exists_run_of_progression (args "stop").asNumber hadds itemLimit
        exact ⟨items, by simp [hzero, hitems, Except.map], hrun.length_le, .inr ⟨next, hrun⟩⟩

theorem range_terms_descending :
    range.eval (fun port => if port = "start" then .int 5 else if port = "stop" then .int (-1)
      else .int (-3)) = .ok (.list [.int 5, .int 2]) := by
  have hsize : 5 < 2 ^ 1024 - 2 ^ 970 := by decide +kernel
  obtain ⟨hrange, -⟩ := range_terms
  obtain ⟨heval, -⟩ := hrange
    (fun port => if port = "start" then .int 5 else if port = "stop" then .int (-1) else .int (-3))
    5 (-1) (-3) rfl rfl rfl hsize (lt_trans (by decide) hsize) (lt_trans (by decide) hsize)
  have hcount : ⌈((-1 - 5 : Int) : ℚ) / (-3 : Int)⌉₊ = 2 := by norm_num
  rw [hcount] at heval
  exact heval

end NodeFlow.Operator
