import NodeFlow.Operator.Arrange
import NodeFlow.Proofs.Number.Finite
import NodeFlow.Proofs.Outcome
import NodeFlow.Proofs.Sequence.Cut

/-!
# Operators that split lists

What is taken from a list and what is dropped make it up, and so do its chunks.  A list is taken
from, dropped from and reversed as by slices, although counts are rounded down and bounds toward
zero, since both are the same from zero on (`bound_eq_count`).
-/

namespace NodeFlow.Operator

variable {args : Args} {items : List Value} {v : Value} {x : Number} {q : ℚ}

/-! ### Counts and bounds -/

/-- The count that a value says: its number rounded down, and the default if it stands for none. -/
def countOf (default : Int) (v : Value) : Int :=
  ((v.numberOr default).quantity?.bind Quantity.floor?).getD default

theorem count_of_finite? {default : Int} {finite : Bool}
    (h : (v.numberOr default).finite? = some finite) :
    count default v = .ok (countOf default v) := by
  have hfinite := Number.finite?_iff h
  unfold count countOf
  simp only [h, Number.floor?_eq]
  cases finite with
  | true => rfl
  | false =>
    cases hquantity : (v.numberOr default).quantity? with
    | none => rfl
    | some quantity => cases quantity with
      | infinite _ => rfl
      | rational q => exact absurd (hfinite.2 ⟨q, hquantity⟩) Bool.false_ne_true

/-- A count is the one that the value says, unless its number is too large. -/
theorem count_eq (default : Int) (v : Value) :
    (count default v = .error .tooLarge ∧ (v.numberOr default).IsTooLarge) ∨
      count default v = .ok (countOf default v) := by
  cases h : (v.numberOr default).finite? with
  | none =>
    left
    unfold count
    simp only [h]
    exact ⟨trivial, Number.finite?_eq_none_iff.1 h⟩
  | some finite => exact .inr (count_of_finite? h)

/-- From zero on, a bound is a count. -/
theorem bound_eq_count (hx : v.asNumber? = some x) (hquantity : x.quantity? = some (.rational q))
    (hq : 0 ≤ q) (default : Int) : bound v = (count default v).map some := by
  have hnumber : v.numberOr default = x := by rw [Value.numberOr, hx, Option.getD_some]
  have htruncate := Number.truncate?_eq hquantity hq
  have hfloor := Number.floor?_eq x
  rw [hquantity, Option.bind_some, Quantity.floor?] at hfloor
  unfold bound count
  simp only [hx, hnumber]
  cases h : x.finite? with
  | none => rfl
  | some finite =>
    have hfinite := (Number.finite?_iff h).2 ⟨q, hquantity⟩
    simp only [hfinite, if_true, htruncate, hfloor]
    rfl

theorem bound_int {n : Int} (h : n.natAbs < 2 ^ 1024 - 2 ^ 970) : bound (.int n) = .ok (some n) := by
  unfold bound
  simp only [Value.asNumber?, Number.finite?_int, if_pos h]
  rfl

theorem countOf_nonneg (hx : v.asNumber? = some x) (hquantity : x.quantity? = some (.rational q))
    (hq : 0 ≤ q) (default : Int) : 0 ≤ countOf default v := by
  unfold countOf
  rw [Value.numberOr, hx, Option.getD_some, hquantity]
  exact Int.floor_nonneg.2 hq

/-- From zero on, a value says the same as a count and as a bound. -/
theorem count_and_bound (hx : v.asNumber? = some x) (hquantity : x.quantity? = some (.rational q))
    (hq : 0 ≤ q) (default : Int) :
    (count default v = .error .tooLarge ∧ bound v = .error .tooLarge) ∨
      ∃ n, 0 ≤ n ∧ count default v = .ok n ∧ bound v = .ok (some n) := by
  rw [bound_eq_count hx hquantity hq default]
  rcases count_eq default v with ⟨hcount, -⟩ | hcount
  · rw [hcount]
    exact .inl ⟨rfl, rfl⟩
  · rw [hcount]
    exact .inr ⟨_, countOf_nonneg hx hquantity hq default, rfl, rfl⟩

/-! ### Spec lemmas -/

theorem eval_take (args : Args) : take.eval args =
    (count 0 (args "n")).map fun k => .list ((args "list").items.take k.toNat) := rfl

theorem eval_drop (args : Args) : drop.eval args =
    (count 0 (args "n")).map fun k => .list ((args "list").items.drop k.toNat) := rfl

theorem eval_slice {step : Option Int} (hitems : (args "list").items? = some items)
    (hstep : bound (args "step") = .ok step) (hne : step.getD 1 ≠ 0) :
    slice.eval args = (bound (args "start")).bind fun start =>
      (bound (args "stop")).map fun stop => .list (Sequence.slice start stop (step.getD 1) items) := by
  show sliceValue args = _
  unfold sliceValue
  simp only [hitems, hstep]
  show (if step.getD 1 = 0 then _ else _) = _
  rw [if_neg hne]
  cases bound (args "start") with
  | error => rfl
  | ok start => cases bound (args "stop") with
    | error => rfl
    | ok stop => rfl

theorem eval_chunk (args : Args) :
    (chunk.eval args = .error .tooLarge ∧ ((args "size").numberOr 1).IsTooLarge) ∨
    chunk.eval args = .ok (.list ((Sequence.chunks (countOf 1 (args "size") - 1).toNat
      (args "list").items).map .list)) := by
  show (chunkValue (args "list") (args "size") = _ ∧ _) ∨
    chunkValue (args "list") (args "size") = _
  unfold chunkValue Value.items
  cases (args "list").items? with
  | none => exact .inr (by simp [Sequence.chunks])
  | some items =>
    rcases count_eq 1 (args "size") with ⟨hcount, hlarge⟩ | hcount
    · exact .inl ⟨by simp only [hcount]; rfl, hlarge⟩
    · exact .inr (by simp only [hcount]; rfl)

theorem eval_flatten {parts : List (List Value)} (h : args "list" = .list (parts.map .list)) :
    flatten.eval args = .ok (.list parts.flatten) := by
  have hparts : (parts.map Value.list).flatMap (fun v => v.items?.getD [v]) = parts.flatten := by
    rw [List.flatMap_map]
    exact List.flatMap_id'
  show Except.ok (Value.list ((args "list").items.flatMap fun v => v.items?.getD [v])) = _
  rw [h, Value.items, Value.items?, Option.getD_some, hparts]

/-! ### What is split -/

/-- A slice backward without bounds is the reverse. -/
theorem eval_slice_reverse {again : Args} (hlist : again "list" = args "list")
    (hstart : again "start" = .null) (hstop : again "stop" = .null)
    (hstep : again "step" = .int (-1)) : slice.eval again = reverse.eval args := by
  show slice.eval again = .ok (.list ((args "list").items?.getD []).reverse)
  cases hitems : (args "list").items? with
  | none =>
    show sliceValue again = _
    unfold sliceValue
    simp only [hlist, hitems]
    rfl
  | some items =>
    have hone : (-1 : Int).natAbs < 2 ^ 1024 - 2 ^ 970 := by decide +kernel
    have hbound : bound (again "step") = .ok (some (-1)) := by rw [hstep, bound_int hone]
    rw [eval_slice (hlist ▸ hitems) hbound (by decide), hstart, hstop]
    show Except.ok (Value.list (Sequence.slice none none (-1) items)) = _
    rw [Sequence.slice_reverse]
    rfl

section Bounds

variable {again : Args}

theorem eval_slice_take (hitems : (args "list").items? = some items)
    (hx : (args "n").asNumber? = some x) (hquantity : x.quantity? = some (.rational q))
    (hq : 0 ≤ q) (hlist : again "list" = args "list") (hstep : again "step" = .null)
    (hstart : again "start" = .null) (hstop : again "stop" = args "n") :
    slice.eval again = take.eval args := by
  have hnone : bound (again "step") = .ok none := by rw [hstep]; rfl
  rw [eval_slice (hlist ▸ hitems) hnone (by decide), hstart, hstop, eval_take, Value.items, hitems]
  rcases count_and_bound hx hquantity hq 0 with ⟨hcount, hbound⟩ | ⟨n, hn, hcount, hbound⟩
  · rw [hcount, hbound]
    rfl
  · rw [hcount, hbound]
    exact congrArg (Except.ok ∘ Value.list) (Sequence.slice_stop items hn)

theorem eval_slice_drop (hitems : (args "list").items? = some items)
    (hx : (args "n").asNumber? = some x) (hquantity : x.quantity? = some (.rational q))
    (hq : 0 ≤ q) (hlist : again "list" = args "list") (hstep : again "step" = .null)
    (hstart : again "start" = args "n") (hstop : again "stop" = .null) :
    slice.eval again = drop.eval args := by
  have hnone : bound (again "step") = .ok none := by rw [hstep]; rfl
  rw [eval_slice (hlist ▸ hitems) hnone (by decide), hstart, hstop, eval_drop, Value.items, hitems]
  rcases count_and_bound hx hquantity hq 0 with ⟨hcount, hbound⟩ | ⟨n, hn, hcount, hbound⟩
  · rw [hcount, hbound]
    rfl
  · rw [hcount, hbound]
    exact congrArg (Except.ok ∘ Value.list) (Sequence.slice_start items hn)

end Bounds

/-- Splitting loses and doubles no item: what is taken and what is dropped make up the list, and so
do its chunks, all but the last of which have the count asked for or one.  The operators that cut
agree with slices. -/
theorem splitting_keeps_items :
    (∀ args : Args, (take.eval args = .error .tooLarge ∧ drop.eval args = .error .tooLarge ∧
        (args "n").asNumber.IsTooLarge) ∨
      ∃ front back, take.eval args = .ok (.list front) ∧ drop.eval args = .ok (.list back) ∧
        front ++ back = (args "list").items) ∧
    (∀ args : Args, (chunk.eval args = .error .tooLarge ∧
        ((args "size").numberOr 1).IsTooLarge) ∨
      ∃ parts : List (List Value), chunk.eval args = .ok (.list (parts.map .list)) ∧
      (∀ again : Args, again "list" = .list (parts.map .list) →
        flatten.eval again = .ok (.list (args "list").items)) ∧
      (∀ part ∈ parts, part ≠ [] ∧ part.length ≤ max 1 (countOf 1 (args "size"))) ∧
      ∀ part ∈ parts.dropLast, part.length = max 1 (countOf 1 (args "size"))) ∧
    (∀ args again : Args, again "list" = args "list" → again "start" = .null →
      again "stop" = .null → again "step" = .int (-1) → slice.eval again = reverse.eval args) ∧
    ∀ (args again : Args) (items : List Value) (x : Number) (q : ℚ),
      (args "list").items? = some items → (args "n").asNumber? = some x →
      x.quantity? = some (.rational q) → 0 ≤ q → again "list" = args "list" →
      again "step" = .null →
      (again "start" = .null → again "stop" = args "n" → slice.eval again = take.eval args) ∧
      (again "start" = args "n" → again "stop" = .null → slice.eval again = drop.eval args) := by
  refine ⟨fun args => ?_, fun args => ?_, fun args again => eval_slice_reverse, ?_⟩
  · rw [eval_take, eval_drop]
    rcases count_eq 0 (args "n") with ⟨hcount, hlarge⟩ | hcount
    · rw [hcount]
      exact .inl ⟨rfl, rfl, hlarge⟩
    · rw [hcount]
      exact .inr ⟨_, _, rfl, rfl, List.take_append_drop _ _⟩
  · refine (eval_chunk args).imp_right fun hchunks => ⟨_, hchunks, fun again hagain => ?_, ?_, ?_⟩
    · rw [eval_flatten hagain, Sequence.flatten_chunks]
    · intro part hpart
      obtain ⟨hne, hlength⟩ := Sequence.chunk_bounds hpart
      exact ⟨hne, by omega⟩
    · intro part hpart
      have hlength := Sequence.length_of_mem_dropLast_chunks hpart
      omega
  · intro args again items x q hitems hx hquantity hq hlist hstep
    exact ⟨eval_slice_take hitems hx hquantity hq hlist hstep,
      eval_slice_drop hitems hx hquantity hq hlist hstep⟩

/-- Three items, to be split by two and a half. -/
def between : Args := fun port =>
  if port = "list" then .list [.int 1, .int 2, .int 3]
  else .float (Float.ofBits 0x4004000000000000)

theorem splitting_keeps_items_between :
    slice.eval (fun port => if port = "list" ∨ port = "stop" then between port else .null) =
      take.eval between ∧
    slice.eval (fun port => if port = "list" ∨ port = "start" then between port else .null) =
      drop.eval between ∧
    slice.eval (fun port => if port = "list" then between port
      else if port = "step" then .int (-1) else .null) = reverse.eval between ∧
    (∃ parts : List (List Value), chunk.eval between = .ok (.list (parts.map .list)) ∧
      flatten.eval (fun _ => .list (parts.map .list)) = .ok (between "list")) := by
  have hform : Binary.form (Float.ofBits 0x4004000000000000) =
      .finite false 5629499534213120 (-51) := by decide +kernel
  have hquantity : (Number.float (Float.ofBits 0x4004000000000000)).quantity? =
      some (.rational (5629499534213120 * 2 ^ (-51 : Int))) := by
    rw [Number.quantity?, hform]
    simp [Binary.Form.quantity?]
  obtain ⟨-, hchunk, hreverse, hslice⟩ := splitting_keeps_items
  obtain ⟨htake, -⟩ := hslice between
    (fun port => if port = "list" ∨ port = "stop" then between port else .null)
    [.int 1, .int 2, .int 3] _ _ rfl rfl hquantity (by positivity) rfl rfl
  obtain ⟨-, hdrop⟩ := hslice between
    (fun port => if port = "list" ∨ port = "start" then between port else .null)
    [.int 1, .int 2, .int 3] _ _ rfl rfl hquantity (by positivity) rfl rfl
  refine ⟨htake rfl rfl, hdrop rfl rfl, hreverse _ _ rfl rfl rfl rfl, ?_⟩
  rcases hchunk between with ⟨herror, -⟩ | ⟨parts, hparts, hflatten, -⟩
  · have hvalue : chunk.eval between ≠ .error .tooLarge := by decide +kernel
    exact absurd herror hvalue
  · exact ⟨parts, hparts, hflatten _ rfl⟩

example : chunk.eval between = .ok (.list [.list [.int 1, .int 2], .list [.int 3]]) := by
  decide +kernel

end NodeFlow.Operator
