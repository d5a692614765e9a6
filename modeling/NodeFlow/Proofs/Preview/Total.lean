import Mathlib.Algebra.Group.Int.Defs
import NodeFlow.Proofs.Preview.Evaluate

/-!
# When evaluation gives values

Nothing that can go wrong with a node keeps evaluation from giving values: cycles, missing nodes and
operators without a result all amount to the value nothing.  The one thing that stands in the way is
a maximum of passes that is an integer too large for a double, at a loop that governs a root.  Then
there are no values at all, even if the loop does not run (`evaluate_ok_iff`, `vast_has_no_values`).
-/

namespace NodeFlow.Preview

variable {s : Setting} {g : Graph} {record : Value} {loop : String} {cap : Int} {α β : Type}

/-! ### Loops without a limit -/

theorem gives_bind_error {ε : Type} {P : Memo → Prop} {x : ExceptT ε (StateM Memo) α} {c : ε}
    {f : α → ExceptT ε (StateM Memo) β} (hx : Gives P x.run (.error c)) :
    Gives P (x >>= f).run (.error c) := by
  show Gives P (x.run >>= ExceptT.bindCont f) _
  exact hx.bind (Gives.pure _)

theorem passCap_eq_error {V : String → Value} {e : Edge} (limit : ¬ HasPassLimit g V loop)
    (he : g.inputEdge? loop (some "max") = some e) : passCap (V e.source) = .error .tooLarge := by
  have hfinite : (V e.source).asNumber.finite? = none := by
    by_contra hne
    refine limit fun e' he' => ?_
    obtain rfl : e = e' := Option.some.inj (he.symm.trans he')
    exact hne
  rw [passCap, hfinite]

theorem gives_allowedPasses_error (known : ∀ m ∈ s.failed, s.graph.Circular m)
    (limit : ¬ HasPassLimit s.graph (s.graph.value s.record) loop) (cap : Int) :
    Gives (Sound s) (allowedPasses s loop cap).run (.error .tooLarge) := by
  rw [allowedPasses]
  cases hmax : s.graph.inputEdge? loop (some "max") with
  | none =>
    refine absurd (fun e he => ?_) limit
    rw [hmax] at he
    cases he
  | some e =>
    refine gives_bind_ok (gives_lift (gives_safely known (some e))) ?_
    rw [← passCap_eq_error limit hmax]
    exact Gives.pure _

theorem gives_loopOutcome_error (known : ∀ m ∈ s.failed, s.graph.Circular m)
    (limit : ¬ HasPassLimit s.graph (s.graph.value s.record) loop) (root : String) (cap : Int) :
    Gives (Sound s) (loopOutcome s loop root cap).run (.error .tooLarge) := by
  rw [loopOutcome]
  refine gives_bind_ok (gives_lift (gives_safely known _)) ?_
  exact gives_bind_error (gives_allowedPasses_error known limit cap)

theorem gives_governedValues_error (known : ∀ m ∈ s.failed, s.graph.Circular m) {roots : List Root}
    (limit : ∃ root ∈ roots, ∃ loop ∈ s.graph.loopOf? root.node,
      ¬ HasPassLimit s.graph (s.graph.value s.record) loop) :
    Gives (Sound s) (governedValues s cap s.graph.governed roots).run (.error .tooLarge) := by
  induction roots with
  | nil =>
    obtain ⟨root, hroot, -⟩ := limit
    cases hroot
  | cons root rest ih =>
    have later (hroot : ∀ loop ∈ s.graph.loopOf? root.node,
        HasPassLimit s.graph (s.graph.value s.record) loop) :
        Gives (Sound s) (governedValues s cap s.graph.governed rest).run (.error .tooLarge) := by
      obtain ⟨root', hmem, loop, hloop, hnot⟩ := limit
      rcases List.mem_cons.1 hmem with rfl | hmem
      · exact absurd (hroot loop hloop) hnot
      · exact ih ⟨root', hmem, loop, hloop, hnot⟩
    rw [governedValues_cons]
    cases hl : s.graph.loopOf? root.node with
    | none =>
      refine later fun loop hloop => ?_
      rw [hl] at hloop
      cases hloop
    | some loop =>
      by_cases hlimit : HasPassLimit s.graph (s.graph.value s.record) loop
      · refine gives_bind_ok (gives_loopOutcome known hlimit root.node cap) ?_
        refine gives_bind_error (later fun loop' hloop => ?_)
        rw [hl] at hloop
        obtain rfl := Option.some.inj hloop
        exact hlimit
      · exact gives_bind_error (gives_loopOutcome_error known hlimit root.node cap)

/-! ### All nodes -/

theorem evaluate_eq_error (limit : ∃ root ∈ g.roots, ∃ loop ∈ g.loopOf? root.node,
      ¬ HasPassLimit g (g.value record) loop) : evaluate g record cap = .error .tooLarge := by
  have done := settled g record
  have hgoverned : ((governedValues ⟨g, record, (settle g record).2⟩ cap g.governed g.roots).run
      (settle g record).1).1 = .error .tooLarge :=
    (gives_governedValues_error done.failed limit).run_fst done.sound
  rw [evaluate]
  dsimp only
  rw [hgoverned]
  rfl

/-- **Evaluation gives each node a value, unless a limit is out of range.**  For every graph and
record, evaluation gives one value to each name of a node exactly if no loop that governs a root has
an integer too large for a double for its maximum; otherwise it ends with the fault that a number is
too large, and there is no other fault. -/
theorem evaluate_ok_iff (g : Graph) (record : Value) (cap : Int) :
    ((∃ values, evaluate g record cap = .ok values ∧ (values.map (·.1)).Nodup ∧
        ∀ id, id ∈ values.map (·.1) ↔ id ∈ g.ids) ↔
      ∀ root ∈ g.roots, ∀ loop ∈ g.loopOf? root.node, HasPassLimit g (g.value record) loop) ∧
    ∀ fault, evaluate g record cap = .error fault ↔ fault = .tooLarge ∧
      ∃ root ∈ g.roots, ∃ loop ∈ g.loopOf? root.node, ¬ HasPassLimit g (g.value record) loop := by
  by_cases limit : ∀ root ∈ g.roots, ∀ loop ∈ g.loopOf? root.node,
      HasPassLimit g (g.value record) loop
  · have hkeys (F : String → Value) :
        (g.distinctIds.map fun id => (id, F id)).map (·.1) = g.distinctIds := by
      rw [List.map_map]
      exact List.map_id _
    refine ⟨iff_of_true ⟨_, evaluate_eq limit, ?_, fun id => ?_⟩ limit, fun fault => ?_⟩
    · rw [hkeys]
      exact nodup_eraseDups _
    · rw [hkeys]
      exact Graph.mem_distinctIds
    · rw [evaluate_eq limit]
      refine iff_of_false nofun ?_
      rintro ⟨-, root, hroot, loop, hloop, hnot⟩
      exact hnot (limit root hroot loop hloop)
  · have hnot : ∃ root ∈ g.roots, ∃ loop ∈ g.loopOf? root.node,
        ¬ HasPassLimit g (g.value record) loop := by
      simpa only [not_forall, exists_prop] using limit
    rw [evaluate_eq_error hnot]
    refine ⟨iff_of_false ?_ limit, fun fault => ?_⟩
    · rintro ⟨values, hvalues, -⟩
      cases hvalues
    · constructor
      · intro h
        exact ⟨(Except.error.inj h).symm, hnot⟩
      · rintro ⟨rfl, -⟩
        rfl

/-- A loop without a condition, whose maximum is an integer too large for a double. -/
def vast : Graph where
  nodes := [⟨"limit", none, .const (.int (10 ^ 400)) .number none⟩,
    ⟨"loop", none, .operator "while_loop" none []⟩, ⟨"total", none, .output "total" .null⟩]
  edges := [⟨none, "limit", none, "loop", some "max"⟩, ⟨none, "loop", some "body", "total", none⟩]
  metadata := []

/-- The loop never runs, and yet there are no values. -/
theorem vast_has_no_values : evaluate vast .null 1000 = .error .tooLarge := by
  decide +kernel

end NodeFlow.Preview
