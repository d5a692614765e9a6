import NodeFlow.Proofs.Outcome

/-!
# What computations with a state do

`Triple P x Q` says that `x`, started in a state with `P`, ends with an answer and a state that have
`Q`.  Often the answer is the same from all such states, and `P` holds again afterwards; then
`Gives P x v` says so.  Of a computation that may fail, and whose state is lost then, `Yields P x Q R`
says that it ends so or fails, and then `R` holds.
-/

namespace NodeFlow

open Outcome

variable {σ ε α β : Type}

/-- From a state with `P`, the computation `x` ends with an answer and a state that have `Q`. -/
def Triple (P : σ → Prop) (x : StateM σ α) (Q : α → σ → Prop) : Prop :=
  ∀ c, P c → Q (x.run c).1 (x.run c).2

/-- From any state with `P`, the computation `x` answers `v`, and ends in a state with `P`. -/
def Gives (P : σ → Prop) (x : StateM σ α) (v : α) : Prop := Triple P x fun a c => a = v ∧ P c

/-- From a state with `P`, the computation `x` ends with an answer and a state that have `Q`, or it
fails and `R` holds. -/
def Yields (P : σ → Prop) (x : StateT σ (Except ε) α) (Q : α → σ → Prop) (R : Prop) : Prop :=
  ∀ c, P c → match x.run c with
    | .ok (a, c') => Q a c'
    | .error _ => R

namespace Triple

variable {P : σ → Prop} {x : StateM σ α} {f : α → StateM σ β} {Q : α → σ → Prop}
  {R : β → σ → Prop} {v : α}

theorem pure (h : ∀ c, P c → Q v c) : Triple P (Pure.pure v) Q := h

theorem bind (hx : Triple P x Q) (hf : ∀ a, Triple (Q a) (f a) R) : Triple P (x >>= f) R := by
  intro c hc
  rw [StateT.run_bind]
  exact hf _ _ (hx c hc)

end Triple

/-! ### Computations that give one answer -/

namespace Gives

variable {P : σ → Prop} {x : StateM σ α} {f : α → StateM σ β} {v : α} {w : β}

theorem pure (v : α) : Gives P (Pure.pure v) v := fun _ hc => ⟨rfl, hc⟩

theorem bind (hx : Gives P x v) (hf : Gives P (f v) w) : Gives P (x >>= f) w := by
  intro c hc
  rw [StateT.run_bind]
  obtain ⟨ha, hc'⟩ := hx c hc
  rw [← ha] at hf
  exact hf _ hc'

theorem map {h : α → β} (hx : Gives P x v) : Gives P (h <$> x) (h v) := by
  intro c hc
  rw [StateT.run_map]
  obtain ⟨ha, hc'⟩ := hx c hc
  exact ⟨congrArg h ha, hc'⟩

theorem run_fst (hx : Gives P x v) {c : σ} (hc : P c) : (x.run c).1 = v := (hx c hc).1

/-- A computation that may fail gives what it ends with from each state. -/
theorem iff_run {x : ExceptT ε (StateM σ) α} {v : Except ε α} :
    Gives P x.run v ↔ ∀ c, P c → (x.run c).1 = v ∧ P (x.run c).2 := Iff.rfl

/-- A chain of two steps of which the first may fail. -/
theorem bind_outcome {x : ExceptT ε (StateM σ) α} {f : α → ExceptT ε (StateM σ) β}
    {v : Except ε α} {w : α → Except ε β} (hx : Gives P x.run v)
    (hf : ∀ a, v = .ok a → Gives P (f a).run (w a)) : Gives P (x >>= f).run (v >>= w) := by
  show Gives P (x.run >>= ExceptT.bindCont f) _
  refine hx.bind ?_
  cases v with
  | error c => exact .pure (Except.error c)
  | ok a => exact hf a rfl

/-- A computation for each item of a list, each of which may fail. -/
theorem mapM_outcome {f : α → ExceptT ε (StateM σ) β} {b : α → Except ε β} {l : List α}
    (h : ∀ i ∈ l, Gives P (f i).run (b i)) : Gives P (l.mapM f).run (l.mapM b) := by
  induction l with
  | nil => exact .pure (Except.ok [])
  | cons i rest ih =>
    rw [List.mapM_cons, List.mapM_cons]
    refine (h i List.mem_cons_self).bind_outcome fun v _ => ?_
    refine (ih fun j hj => h j (List.mem_cons_of_mem i hj)).bind_outcome fun vs _ => ?_
    exact .pure (Except.ok (v :: vs))

end Gives

/-! ### Computations that may fail -/

namespace Yields

variable {P : σ → Prop} {x : StateT σ (Except ε) α} {f : α → StateT σ (Except ε) β}
  {Q Q' : α → σ → Prop} {S : β → σ → Prop} {R : Prop} {v : α}

theorem pure (h : ∀ c, P c → Q v c) : Yields P (Pure.pure v : StateT σ (Except ε) α) Q R := h

theorem bind (hx : Yields P x Q R) (hf : ∀ a, Yields (Q a) (f a) S R) :
    Yields P (x >>= f) S R := by
  intro c hc
  have hfirst := hx c hc
  rw [StateT.run_bind]
  cases hrun : x.run c with
  | error e =>
    rw [hrun] at hfirst
    exact hfirst
  | ok result =>
    rw [hrun] at hfirst
    exact hf result.1 result.2 hfirst

theorem imp (hx : Yields P x Q R) (h : ∀ a c, Q a c → Q' a c) : Yields P x Q' R := by
  intro c hc
  have hfirst := hx c hc
  cases hrun : x.run c with
  | error e =>
    rw [hrun] at hfirst
    exact hfirst
  | ok result =>
    rw [hrun] at hfirst
    exact h result.1 result.2 hfirst

/-- What is known of a state may be used before the computation is started. -/
theorem assume {φ : Prop} (h : φ → Yields P x Q R) : Yields (fun c => φ ∧ P c) x Q R :=
  fun c hc => h hc.1 c hc.2

theorem get {Q : σ → σ → Prop} (h : ∀ c, P c → Q c c) :
    Yields P (MonadState.get : StateT σ (Except ε) σ) Q R := h

theorem modify {f : σ → σ} {Q : PUnit → σ → Prop} (h : ∀ c, P c → Q ⟨⟩ (f c)) :
    Yields P (modify f : StateT σ (Except ε) PUnit) Q R := h

/-- An outcome that does not depend on the state. -/
theorem lift {x : Except ε α} (hok : ∀ a, x = .ok a → ∀ c, P c → Q a c)
    (herror : ∀ e, x = .error e → R) : Yields P (liftM x : StateT σ (Except ε) α) Q R := by
  intro c hc
  cases x with
  | error e => exact herror e rfl
  | ok a => exact hok a rfl c hc

theorem map {h : α → β} (hx : Yields P x (fun a c => S (h a) c) R) : Yields P (h <$> x) S R := by
  rw [← bind_pure_comp]
  exact hx.bind fun a => .pure fun _ hc => hc

/-- What a computation ends with, its last state aside. -/
theorem run' {c : σ} {Q : α → Prop} (hx : Yields P x (fun a _ => Q a) R) (hc : P c) :
    (∀ a, x.run' c = .ok a → Q a) ∧ ∀ e, x.run' c = .error e → R := by
  have hrun := hx c hc
  have hresult : x.run' c = (x.run c).map (·.1) := rfl
  rw [hresult]
  cases h : x.run c with
  | error e =>
    rw [h] at hrun
    exact ⟨nofun, fun _ _ => hrun⟩
  | ok result =>
    rw [h] at hrun
    refine ⟨fun a ha => ?_, nofun⟩
    obtain rfl := Except.ok.inj ha
    exact hrun

end Yields

end NodeFlow
