/-!
# Entries of tables

A table is a list of entries, a key and what is kept under it; the first entry of a key counts.
-/

namespace NodeFlow

variable {κ α β : Type} [BEq κ] [LawfulBEq κ] {l : List (κ × α)} {k k' : κ} {v : α}

theorem mem_of_lookup (h : l.lookup k = some v) : (k, v) ∈ l := by
  obtain ⟨before, after, rfl, -⟩ := List.lookup_eq_some_iff.1 h
  exact List.mem_append_right before List.mem_cons_self

theorem lookup_cons_of_ne (h : k ≠ k') : ((k', v) :: l).lookup k = l.lookup k := by
  rw [List.lookup_cons, beq_eq_false_iff_ne.2 h]

omit [LawfulBEq κ] in
theorem lookup_map_snd (f : α → β) (l : List (κ × α)) (k : κ) :
    (l.map fun e => (e.1, f e.2)).lookup k = (l.lookup k).map f := by
  induction l with
  | nil => rfl
  | cons e rest ih =>
    rw [List.map_cons, List.lookup_cons, List.lookup_cons]
    cases k == e.1 with
    | true => rfl
    | false => exact ih

/-- In a table made of some items, the first item with the key counts. -/
theorem lookup_map_find {ι : Type} (key : ι → κ) (f : ι → α) (items : List ι) (k : κ) :
    (items.map fun i => (key i, f i)).lookup k = (items.find? (key · == k)).map f := by
  induction items with
  | nil => rfl
  | cons i rest ih =>
    rw [List.map_cons, List.lookup_cons, List.find?_cons, BEq.comm, ih]
    cases key i == k <;> rfl

end NodeFlow
