import Mathlib.Data.List.Forall2

/-!
# Outcomes

What is known of the parts of a computation that may fail, from how the whole of it ended: a chain
of two steps, and one step for each item of a list.
-/

namespace NodeFlow.Outcome

variable {ε α β : Type} {x : Except ε α} {f : α → Except ε β} {l : List α} {c : ε}

instance decidableEqExcept [DecidableEq ε] [DecidableEq α] : DecidableEq (Except ε α)
  | .ok a, .ok b => decidable_of_iff (a = b) ⟨congrArg Except.ok, Except.ok.inj⟩
  | .error c, .error d => decidable_of_iff (c = d) ⟨congrArg Except.error, Except.error.inj⟩
  | .ok _, .error _ | .error _, .ok _ => isFalse nofun

theorem bind_eq_ok_iff {b : β} : x >>= f = .ok b ↔ ∃ a, x = .ok a ∧ f a = .ok b := by
  cases x with
  | error c => exact ⟨nofun, nofun⟩
  | ok a =>
    constructor
    · intro h
      exact ⟨a, rfl, h⟩
    · rintro ⟨a', ha, h⟩
      obtain rfl := Except.ok.inj ha
      exact h

theorem bind_eq_error_iff :
    x >>= f = .error c ↔ x = .error c ∨ ∃ a, x = .ok a ∧ f a = .error c := by
  cases x with
  | error c' =>
    constructor
    · intro h
      obtain rfl := Except.error.inj h
      exact .inl rfl
    · rintro (h | ⟨a, ha, -⟩)
      · obtain rfl := Except.error.inj h
        rfl
      · cases ha
  | ok a =>
    constructor
    · intro h
      exact .inr ⟨a, rfl, h⟩
    · rintro (h | ⟨a', ha, h⟩)
      · cases h
      · obtain rfl := Except.ok.inj ha
        exact h

theorem map_eq_ok_iff {g : α → β} {b : β} : x.map g = .ok b ↔ ∃ a, x = .ok a ∧ g a = b := by
  cases x with
  | error => simp [Except.map]
  | ok a => simp [Except.map]

theorem map_eq_error_iff {g : α → β} : x.map g = .error c ↔ x = .error c := by
  cases x with
  | error => simp [Except.map]
  | ok => simp [Except.map]

theorem mapM_congr {f' : α → Except ε β} (h : ∀ i ∈ l, f i = f' i) : l.mapM f = l.mapM f' := by
  induction l with
  | nil => rfl
  | cons i rest ih =>
    rw [List.mapM_cons, List.mapM_cons, h i List.mem_cons_self,
      ih fun j hj => h j (List.mem_cons_of_mem i hj)]

theorem mapM_map_result {γ : Type} (h : β → γ) (l : List α) :
    (l.mapM fun i => (f i).map h) = (l.mapM f).map (List.map h) := by
  induction l with
  | nil => rfl
  | cons i rest ih =>
    rw [List.mapM_cons, List.mapM_cons, ih]
    cases f i with
    | error => rfl
    | ok => cases rest.mapM f <;> rfl

/-- Steps that all succeed give the list of their results. -/
theorem mapM_ok {b : α → β} (h : ∀ i ∈ l, f i = .ok (b i)) : l.mapM f = .ok (l.map b) := by
  induction l with
  | nil => rfl
  | cons i rest ih =>
    rw [List.mapM_cons, h i List.mem_cons_self, ih fun j hj => h j (List.mem_cons_of_mem i hj)]
    rfl

/-- All steps succeed where the whole does, and it gives what they give. -/
theorem mapM_eq_ok_iff {vs : List β} :
    l.mapM f = .ok vs ↔ List.Forall₂ (fun i v => f i = .ok v) l vs := by
  induction l generalizing vs with
  | nil =>
    rw [List.mapM_nil, List.forall₂_nil_left_iff]
    exact ⟨fun h => (Except.ok.inj h).symm, fun h => congrArg _ h.symm⟩
  | cons i rest ih =>
    rw [List.mapM_cons]
    constructor
    · intro h
      obtain ⟨v, hv, h⟩ := bind_eq_ok_iff.1 h
      obtain ⟨others, hrest, h⟩ := bind_eq_ok_iff.1 h
      obtain rfl := Except.ok.inj h
      exact .cons hv (ih.1 hrest)
    · intro h
      cases h with
      | cons hv hrest => exact bind_eq_ok_iff.2 ⟨_, hv, bind_eq_ok_iff.2 ⟨_, ih.2 hrest, rfl⟩⟩

theorem exists_of_mapM_eq_ok {vs : List β} (h : l.mapM f = .ok vs) :
    ∀ i ∈ l, ∃ v ∈ vs, f i = .ok v := by
  have hall := mapM_eq_ok_iff.1 h
  induction hall with
  | nil => nofun
  | cons hv hrest ih =>
    refine List.forall_mem_cons.2 ⟨⟨_, List.mem_cons_self, hv⟩, fun i hi => ?_⟩
    obtain ⟨w, hw, hfi⟩ := ih (mapM_eq_ok_iff.2 hrest) i hi
    exact ⟨w, List.mem_cons_of_mem _ hw, hfi⟩

/-- The whole fails where a step does. -/
theorem exists_mapM_eq_error {i : α} (hi : i ∈ l) (h : f i = .error c) :
    ∃ c', l.mapM f = .error c' := by
  cases hl : l.mapM f with
  | error c' => exact ⟨c', rfl⟩
  | ok vs =>
    obtain ⟨v, -, hv⟩ := exists_of_mapM_eq_ok hl i hi
    rw [h] at hv
    cases hv

/-- A failure is that of one of the steps. -/
theorem exists_of_mapM_eq_error (h : l.mapM f = .error c) : ∃ i ∈ l, f i = .error c := by
  induction l with
  | nil => cases h
  | cons i rest ih =>
    rw [List.mapM_cons] at h
    rcases bind_eq_error_iff.1 h with hi | ⟨v, -, h⟩
    · exact ⟨i, List.mem_cons_self, hi⟩
    · rcases bind_eq_error_iff.1 h with hrest | ⟨vs, -, h⟩
      · obtain ⟨j, hj, hfj⟩ := ih hrest
        exact ⟨j, List.mem_cons_of_mem i hj, hfj⟩
      · cases h

/-- A chain of two steps that keep a state. -/
theorem run_bind {σ : Type} (x : ExceptT ε (StateM σ) α) (f : α → ExceptT ε (StateM σ) β) (s : σ) :
    (x >>= f).run s =
      match x.run s with
      | (.ok a, s') => (f a).run s'
      | (.error c, s') => (.error c, s') := by
  show (x.run >>= ExceptT.bindCont f) s = _
  show (match x.run s with | (a, s') => ExceptT.bindCont f a s') = _
  rcases x.run s with ⟨a | c, s'⟩ <;> rfl

end NodeFlow.Outcome
