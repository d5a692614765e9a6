import NodeFlow.Operator.Arrange
import NodeFlow.Operator.Scalar
import NodeFlow.Proofs.Value.Strict

/-!
# Operators that compare values

Thinning a list keeps exactly the first occurrences of its items, since strict equality is an
equivalence (`unique_keeps_firsts`).  The operators that compare values keep truth values and
numbers apart at the top.  Below it they do so for values that do not cross there
(`compares_alike`), and for others they do not (`crossed_lists_equal`).
-/

namespace NodeFlow.Operator

variable {args : Args}

/-! ### First occurrences -/

theorem eval_unique (args : Args) : unique.eval args =
    .ok (.list (Sequence.distinct Value.strictEquals (args "list").items)) := rfl

theorem items_list {xs : List Value} (h : args "list" = .list xs) : (args "list").items = xs := by
  rw [h]
  rfl

/-- Over proper values strict equality is an equivalence.  So thinning gives the items that are
strictly equal to none before them, kept or dropped: no two of these are strictly equal, each item
is strictly equal to exactly one, and a second thinning changes nothing. -/
theorem unique_keeps_firsts (hproper : ∀ x ∈ (args "list").items, x.IsProper) :
    Sequence.IsLikeness Value.strictEquals Value.IsProper ∧
    ∃ ys, unique.eval args = .ok (.list ys) ∧
      ys = Sequence.firsts Value.strictEquals (args "list").items ∧
      (ys.Pairwise fun x y => x.strictEquals y = false ∧ y.strictEquals x = false) ∧
      (∀ x ∈ (args "list").items, ys.countP x.strictEquals = 1) ∧
      ∀ again : Args, again "list" = .list ys → unique.eval again = .ok (.list ys) := by
  have likeness := Value.isLikeness_strictEquals
  refine ⟨likeness, _, eval_unique args, Sequence.distinct_eq_firsts likeness hproper, ?_, ?_, ?_⟩
  · refine (Sequence.pairwise_distinct _ _).imp_of_mem fun {x y} hx hy hyx => ⟨?_, hyx⟩
    have hx := hproper x (Sequence.mem_of_mem_distinct hx)
    have hy := hproper y (Sequence.mem_of_mem_distinct hy)
    by_contra hxy
    have := likeness.symm x y hx hy (by simpa using hxy)
    simp [hyx] at this
  · exact fun x hx => Sequence.countP_distinct likeness hproper hx
  · intro again hagain
    rw [eval_unique, items_list hagain, Sequence.distinct_distinct]

theorem unique_keeps_firsts_mixed : ∃ ys,
    unique.eval (fun _ => .list [.bool true, .int 1, .list [.bool true], .list [.int 1]]) =
      .ok (.list ys) ∧
    ys = Sequence.firsts Value.strictEquals
      [.bool true, .int 1, .list [.bool true], .list [.int 1]] ∧
    ys.countP (Value.strictEquals (.list [.int 1])) = 1 := by
  have htrue : Value.IsProper (.bool true) := .atom nofun
  have hone : Value.IsProper (.int 1) := .atom nofun
  have hproper : ∀ x ∈ [Value.bool true, .int 1, .list [.bool true], .list [.int 1]],
      x.IsProper := by
    simp only [List.forall_mem_cons]
    exact ⟨htrue, hone, .list (by simpa), .list (by simpa), nofun⟩
  obtain ⟨-, ys, heval, hfirsts, -, hcount, -⟩ := @unique_keeps_firsts
    (fun _ => .list [.bool true, .int 1, .list [.bool true], .list [.int 1]]) hproper
  exact ⟨ys, heval, hfirsts, hcount _ (by decide)⟩

example : unique.eval (fun _ => .list [.bool true, .int 1, .list [.bool true], .list [.int 1]]) =
    .ok (.list [.bool true, .int 1, .list [.bool true]]) := by decide

/-! ### Strictness at every depth -/

/-- Selection keeps the items that are alike to the value. -/
theorem filterEqual_alike (hitems : ∀ x ∈ (args "list").items, x.IsTidy)
    (hvalue : (args "value").IsTidy)
    (hcross : ∀ x ∈ (args "list").items, ∀ depth, ¬ x.CrossesAt (depth + 1) (args "value")) :
    ∃ ys, filterEqual.eval args = .ok (.list ys) ∧
      ∀ x, x ∈ ys ↔ x ∈ (args "list").items ∧ x.Alike (args "value") := by
  refine ⟨_, rfl, fun x => ?_⟩
  rw [List.mem_filter]
  exact and_congr_right fun hx => Value.strictEquals_iff_alike (hitems x hx) hvalue (hcross x hx)

/-- Thinning leaves no two items that are alike, and drops only items alike to one that is left. -/
theorem unique_alike (hitems : ∀ x ∈ (args "list").items, x.IsTidy)
    (hcross : ∀ x ∈ (args "list").items, ∀ y ∈ (args "list").items, ∀ depth,
      ¬ x.CrossesAt (depth + 1) y) :
    ∃ ys, unique.eval args = .ok (.list ys) ∧ ys ⊆ (args "list").items ∧
      (ys.Pairwise fun x y => ¬ y.Alike x) ∧
      ∀ x ∈ (args "list").items, x ∈ ys ∨ ∃ y ∈ ys, x.Alike y := by
  have hcovers := Sequence.covers_distinct Value.strictEquals (args "list").items
  have halike {x y : Value} (hx : x ∈ (args "list").items) (hy : y ∈ (args "list").items) :
      x.strictEquals y = true ↔ x.Alike y :=
    Value.strictEquals_iff_alike (hitems x hx) (hitems y hy) (hcross x hx y hy)
  refine ⟨_, eval_unique args, hcovers.subset, ?_, fun x hx => ?_⟩
  · refine (Sequence.pairwise_distinct _ _).imp_of_mem fun {x y} hx hy hyx hlike => ?_
    rw [← halike (hcovers.subset hy) (hcovers.subset hx), hyx] at hlike
    cases hlike
  · refine (hcovers.covered x hx).imp_right fun ⟨y, hy, hlike⟩ => ?_
    exact ⟨y, hy, (halike hx (hcovers.subset hy)).1 hlike⟩

/-- Without crossings strict equality goes part by part, and the operators for equality,
inequality, selection and thinning tell values apart exactly if they are not alike.  The values are
proper: where no number stands inside of one, it depends on the run whether two are equal, namely on
whether the same one stands in both. -/
theorem compares_alike (xs ys : List Value) (es fs : List (Atom × Value)) (args : Args) :
    ((Value.list xs).IsProper → (Value.list ys).IsProper →
      (∀ p ∈ xs.zip ys, ¬ p.1.Crosses p.2) →
      ((Value.list xs).strictEquals (.list ys) = true ↔
        List.Forall₂ (fun v w => v.strictEquals w = true) xs ys)) ∧
    ((Value.record es).IsProper → (Value.record fs).IsProper →
      (∀ e ∈ es, ∀ f ∈ fs, e.1.equals f.1 = true → ¬ e.2.Crosses f.2) →
      ((Value.record es).strictEquals (.record fs) = true ↔ Record.SameKeys es fs ∧
        ∀ e ∈ es, ∀ f ∈ fs, e.1.equals f.1 = true → e.2.strictEquals f.2 = true)) ∧
    ((args "a").IsProper → (args "b").IsProper →
      (∀ depth, ¬ (args "a").CrossesAt (depth + 1) (args "b")) →
      ∃ answer, equality.eval args = .ok (.bool answer) ∧
        inequality.eval args = .ok (.bool !answer) ∧
        (answer = true ↔ (args "a").Alike (args "b"))) ∧
    ((∀ x ∈ (args "list").items, x.IsProper) →
      ((args "value").IsProper →
        (∀ x ∈ (args "list").items, ∀ depth, ¬ x.CrossesAt (depth + 1) (args "value")) →
        ∃ ys, filterEqual.eval args = .ok (.list ys) ∧
          ∀ x, x ∈ ys ↔ x ∈ (args "list").items ∧ x.Alike (args "value")) ∧
      ((∀ x ∈ (args "list").items, ∀ y ∈ (args "list").items, ∀ depth,
          ¬ x.CrossesAt (depth + 1) y) →
        ∃ ys, unique.eval args = .ok (.list ys) ∧ ys ⊆ (args "list").items ∧
          (ys.Pairwise fun x y => ¬ y.Alike x) ∧
          ∀ x ∈ (args "list").items, x ∈ ys ∨ ∃ y ∈ ys, x.Alike y)) := by
  refine ⟨fun _ _ h => Value.strictEquals_list_of_not_crosses h, ?_, ?_, fun hitems => ⟨?_, ?_⟩⟩
  · intro hes hfs h
    cases hes with | record _ _ hdistinct => cases hfs with | record _ _ hdistinct' =>
    exact Value.strictEquals_record_of_not_crosses hdistinct hdistinct' h
  · intro ha hb hcross
    exact ⟨_, rfl, rfl, Value.strictEquals_iff_alike ha.isTidy hb.isTidy hcross⟩
  · exact fun hvalue => filterEqual_alike (fun x hx => (hitems x hx).isTidy) hvalue.isTidy
  · exact unique_alike fun x hx => (hitems x hx).isTidy

/-- Two lists that do not cross, since no truth value counts as two, with a list of both. -/
def opposed : Args := fun port =>
  if port = "a" then .list [.bool true]
  else if port = "list" then .list [.list [.bool true], .list [.int 2]]
  else .list [.int 2]

theorem compares_alike_opposed :
    ((Value.list [.bool true]).strictEquals (.list [.int 2]) = true ↔
      List.Forall₂ (fun v w => Value.strictEquals v w = true) [.bool true] [.int 2]) ∧
    ((Value.record [(.str "a", .bool true)]).strictEquals (.record [(.str "a", .int 2)]) = true →
      Value.strictEquals (.bool true) (.int 2) = true) ∧
    (∃ answer, equality.eval opposed = .ok (.bool answer) ∧
      (answer = true ↔ (Value.list [.bool true]).Alike (.list [.int 2]))) ∧
    (∃ ys, filterEqual.eval opposed = .ok (.list ys) ∧
      (.list [.bool true] ∈ ys ↔ (Value.list [.bool true]).Alike (.list [.int 2]))) ∧
    ∃ ys, unique.eval opposed = .ok (.list ys) ∧ ys.Pairwise fun x y => ¬ y.Alike x := by
  have htrue : Value.IsProper (.bool true) := .atom nofun
  have htwo : Value.IsProper (.int 2) := .atom nofun
  have hfirst : (Value.list [.bool true]).IsProper := .list (List.forall_mem_singleton.2 htrue)
  have hsecond : (Value.list [.int 2]).IsProper := .list (List.forall_mem_singleton.2 htwo)
  have hitems : ∀ x ∈ (opposed "list").items, x.IsProper :=
    List.forall_mem_cons.2 ⟨hfirst, List.forall_mem_singleton.2 hsecond⟩
  have hrecords {v : Value} (hv : v.IsProper) : (Value.record [(.str "a", v)]).IsProper :=
    .record (List.forall_mem_singleton.2 nofun) (List.forall_mem_singleton.2 hv)
      (List.pairwise_singleton _ _)
  have hcross : ∀ x ∈ (opposed "list").items, ∀ y ∈ (opposed "list").items, ∀ depth,
      ¬ x.CrossesAt (depth + 1) y := by
    simp [opposed, Value.items, Value.items?]
    decide
  obtain ⟨hlist, hrecord, hequality, hoperators⟩ := compares_alike [.bool true] [.int 2]
    [(.str "a", .bool true)] [(.str "a", .int 2)] opposed
  obtain ⟨hfilter, hunique⟩ := hoperators hitems
  refine ⟨hlist hfirst hsecond (by decide), fun h => ?_, ?_, ?_, ?_⟩
  · obtain ⟨-, hvalues⟩ := (hrecord (hrecords htrue) (hrecords htwo) (by decide)).1 h
    exact hvalues _ List.mem_cons_self _ List.mem_cons_self (by decide)
  · obtain ⟨answer, heval, -, hanswer⟩ := hequality hfirst hsecond
      (hcross _ (by decide) _ (by decide))
    exact ⟨answer, heval, hanswer⟩
  · obtain ⟨ys, heval, hmem⟩ := hfilter hsecond fun x hx => hcross x hx _ (by decide)
    exact ⟨ys, heval, (hmem _).trans (and_iff_right (by decide))⟩
  · obtain ⟨ys, heval, -, hpairs, -⟩ := hunique hcross
    exact ⟨ys, heval, hpairs⟩

/-- Crossing lists are strictly equal though they are not so position by position. -/
theorem crossed_lists_equal : (Value.list [.bool true]).strictEquals (.list [.int 1]) = true ∧
    ¬ List.Forall₂ (fun v w => Value.strictEquals v w = true) [.bool true] [.int 1] := by
  refine ⟨by decide, fun h => ?_⟩
  cases h with | cons hfirst _ =>
  revert hfirst
  decide

end NodeFlow.Operator
