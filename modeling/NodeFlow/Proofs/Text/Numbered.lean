import NodeFlow.Proofs.Text.Decimal

/-!
# Numbered texts

A text, an underscore and a number: both can be told from the whole, as there is no underscore among
digits.
-/

namespace NodeFlow.Text

/-- The last underscore of a text parts it in one way only. -/
theorem eq_of_append_underscore {s s' t t' : List Char} (ht : '_' ∉ t) (ht' : '_' ∉ t')
    (h : s ++ '_' :: t = s' ++ '_' :: t') : s = s' ∧ t = t' := by
  have tail {u v w : List Char} (hv : '_' ∉ v) (hw : '_' :: v = u ++ '_' :: w) : u = [] := by
    cases u with
    | nil => rfl
    | cons c u =>
      rw [List.cons_append] at hw
      rw [(List.cons.inj hw).2] at hv
      simp at hv
  rcases List.append_eq_append_iff.1 h with ⟨u, rfl, hu⟩ | ⟨u, rfl, hu⟩
  · obtain rfl := tail ht hu
    exact ⟨(List.append_nil s).symm, (List.cons.inj hu).2⟩
  · obtain rfl := tail ht' hu
    exact ⟨List.append_nil s', (List.cons.inj hu).2.symm⟩

theorem eq_of_numbered {base base' : String} {number number' : Nat}
    (h : base ++ "_" ++ toString number = base' ++ "_" ++ toString number') :
    base = base' ∧ number = number' := by
  have hlists := congrArg String.toList h
  simp only [String.toList_append, List.append_assoc, toList_toString] at hlists
  obtain ⟨hbase, hnumber⟩ := eq_of_append_underscore Nat.underscore_not_in_toDigits
    Nat.underscore_not_in_toDigits hlists
  have hvalue := congrArg (Nat.ofDigitChars 10 · 0) hnumber
  simp only [Nat.ofDigitChars_ten_toDigits] at hvalue
  exact ⟨String.toList_inj.1 hbase, hvalue⟩

end NodeFlow.Text
