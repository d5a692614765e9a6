/-!
# Numbers in decimal

The text of a number is its digits, behind a minus if it is negative (`toList_toString_int`).  No
number but zero begins with a zero (`head?_toDigits_ne`).
-/

namespace NodeFlow.Text

theorem isDigit_toDigits (n : Nat) : ∀ c ∈ Nat.toDigits 10 n, c.isDigit = true :=
  fun _ h => Nat.isDigit_of_mem_toDigits (by decide) (by decide) h

theorem head?_toDigits_ne {n : Nat} (hn : 0 < n) : (Nat.toDigits 10 n).head? ≠ some '0' := by
  induction n using Nat.strongRecOn with
  | ind n ih =>
    by_cases hlt : n < 10
    · rw [Nat.toDigits_of_lt_base hlt]
      have : ∀ m < 10, 0 < m → [m.digitChar].head? ≠ some '0' := by decide
      exact this n hlt hn
    · have hsplit : Nat.toDigits 10 (n / 10) ++ Nat.toDigits 10 (n % 10) = Nat.toDigits 10 n := by
        rw [Nat.toDigits_append_toDigits (by decide) (by omega) (Nat.mod_lt n (by decide)),
          Nat.div_add_mod]
      have hfirst := ih (n / 10) (by omega) (by omega)
      rwa [← hsplit, List.head?_append, Option.or_of_isSome]
      exact List.isSome_head?.2 Nat.toDigits_ne_nil

theorem exists_toDigits (n : Nat) :
    ∃ d digits, Nat.toDigits 10 n = d :: digits ∧ d.isDigit = true := by
  have hne : Nat.toDigits 10 n ≠ [] := Nat.toDigits_ne_nil
  obtain ⟨d, digits, h⟩ := List.exists_cons_of_ne_nil hne
  exact ⟨d, digits, h, isDigit_toDigits n d (h ▸ List.mem_cons_self)⟩

theorem toList_toString (n : Nat) : (toString n).toList = Nat.toDigits 10 n := by
  rw [Nat.toString_eq_repr, Nat.toList_repr]

theorem toList_toString_int (n : Int) : (toString n).toList =
    if 0 ≤ n then Nat.toDigits 10 n.toNat else '-' :: Nat.toDigits 10 (-n).toNat := by
  rw [Int.toString_eq_repr, Int.repr_eq_if]
  split
  · exact Nat.toList_repr
  · rw [String.toList_append, Nat.toList_repr]
    rfl

theorem exists_toString (n : Int) :
    ∃ c s, (toString n).toList = c :: s ∧ (c = '-' ∨ c.isDigit = true) := by
  rw [toList_toString_int]
  split
  · obtain ⟨d, digits, h, hd⟩ := exists_toDigits n.toNat
    exact ⟨d, digits, h, .inr hd⟩
  · exact ⟨_, _, rfl, .inl rfl⟩

end NodeFlow.Text
