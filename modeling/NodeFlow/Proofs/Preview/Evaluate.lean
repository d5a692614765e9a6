import NodeFlow.Preview.Evaluate
import NodeFlow.Proofs.Graph.Order
import NodeFlow.Proofs.Graph.Roots
import NodeFlow.Proofs.Preview.Ask
import NodeFlow.Proofs.Triple

/-!
# What evaluation gives

Evaluation asks for every node once (`settled`).  From then on the memo has the value of each node
that is not circular, and whatever is asked is answered with a bottom-up value: nothing is computed
for a circular node, and nothing is what its value is.  The loops only read such values, so the
whole of an evaluation is told by the bottom-up values of a graph (`evaluate_eq`).
-/

open NodeFlow.Outcome

namespace NodeFlow.Preview

variable {s : Setting} {g : Graph} {record : Value} {id : String} {memo : Memo} {α β : Type}

/-! ### Settling all nodes -/

/-- What is known after the nodes `done` were evaluated, as far as it goes. -/
structure Settled (g : Graph) (record : Value) (done : List String)
    (known : Memo × List String) : Prop where
  sound : Sound ⟨g, record, known.2⟩ known.1
  failed : ∀ m ∈ known.2, g.Circular m
  complete : ∀ id ∈ done, id ∈ g.ids → ¬ g.Circular id → ∃ v, (id, v) ∈ known.1

/-- What a question does when nothing is being visited. -/
theorem exists_run_compute (known : ∀ m ∈ s.failed, s.graph.Circular m) (h : Sound s memo)
    (id : String) : ∃ a memo', (compute s id).run memo = (a, memo') ∧ IsAnswer s id a ∧
      Sound s memo' ∧ memo <+: memo' ∧
      (id ∈ s.graph.ids → ¬ s.graph.Circular id → ∃ v, (id, v) ∈ memo') := by
  obtain ⟨a, settles, isAnswer⟩ := exists_settles_ask known id
  obtain ⟨memo', run, h', grows⟩ := settles memo h
  refine ⟨a, memo', ?_, isAnswer, h', grows, fun hid hc => ?_⟩
  · rw [run_compute, run]
  · rw [isAnswer.value hc] at run
    exact exists_mem_memo_of_run run hid

theorem Settled.step {done : List String} {known : Memo × List String}
    (h : Settled g record done known) (id : String) :
    Settled g record (done ++ [id]) (settleNode g record known id) := by
  obtain ⟨a, memo', run, isAnswer, sound', grows, found⟩ := exists_run_compute h.failed h.sound id
  have complete : ∀ m ∈ done ++ [id], m ∈ g.ids → ¬ g.Circular m → ∃ v, (m, v) ∈ memo' := by
    intro m hm hid hc
    rcases List.mem_append.1 hm with hm | hm
    · obtain ⟨v, hv⟩ := h.complete m hm hid hc
      exact ⟨v, grows.subset hv⟩
    · obtain rfl := List.mem_singleton.1 hm
      exact found hid hc
  rw [settleNode, run]
  cases a with
  | ok v => exact ⟨sound', h.failed, complete⟩
  | error c =>
    refine ⟨sound', fun m hm => ?_, complete⟩
    rcases List.mem_append.1 hm with hm | hm
    · exact h.failed m hm
    · obtain rfl := List.mem_singleton.1 hm
      exact isAnswer.circular_of_error

theorem Settled.run {done : List String} {known : Memo × List String}
    (h : Settled g record done known) (ids : List String) :
    Settled g record (done ++ ids) (ids.foldl (settleNode g record) known) := by
  induction ids generalizing done known with
  | nil => simpa using h
  | cons id rest ih => simpa using ih (h.step id)

/-- After all nodes were evaluated, the memo has the value of each one that is not circular. -/
theorem settled (g : Graph) (record : Value) :
    Settled g record (g.order g.ids) (settle g record) := by
  have start : Settled g record [] ([], []) := ⟨nofun, nofun, nofun⟩
  exact start.run (g.order g.ids)

/-- Where a complete memo has no value, there is none. -/
theorem Settled.lookup {known : Memo × List String}
    (h : Settled g record (g.order g.ids) known) (id : String) :
    (known.1.lookup id).getD .null = g.value record id := by
  cases hv : known.1.lookup id with
  | some v =>
    obtain ⟨-, -, rfl⟩ := h.sound.lookup hv
    rfl
  | none =>
    by_cases hid : id ∈ g.ids
    · by_cases hc : g.Circular id
      · rw [Graph.value_of_circular hc]
        rfl
      · obtain ⟨v, hmem⟩ := h.complete id (Graph.mem_order hid hid) hid hc
        have := List.lookup_eq_none_iff.1 hv (id, v) hmem
        simp at this
    · rw [Graph.value_of_absent (Graph.node?_eq_none_iff.2 hid)]
      rfl

/-! ### What loops leave in roots -/

theorem gives_bind_ok {ε : Type} {P : Memo → Prop} {x : ExceptT ε (StateM Memo) α} {v : α}
    {f : α → ExceptT ε (StateM Memo) β} {w : Except ε β}
    (hx : Gives P x.run (.ok v)) (hf : Gives P (f v).run w) : Gives P (x >>= f).run w := by
  show Gives P (x.run >>= ExceptT.bindCont f) w
  exact hx.bind hf

theorem gives_lift {ε : Type} {P : Memo → Prop} {x : StateM Memo α} {v : α} (hx : Gives P x v) :
    Gives P (liftM x : ExceptT ε (StateM Memo) α).run (.ok v) :=
  hx.map

theorem run_orNothing_ok {x : Computation Value} {v : Value} {memo' : Memo}
    (h : x.run memo = (.ok v, memo')) : (orNothing x).run memo = (v, memo') := by
  have hrun : StateT.run x.run memo = (.ok v, memo') := h
  rw [orNothing, StateT.run_bind, hrun]
  rfl

theorem run_orNothing_error {x : Computation Value} {c : Cycle} {memo' : Memo}
    (h : x.run memo = (.error c, memo')) : (orNothing x).run memo = (.null, memo') := by
  have hrun : StateT.run x.run memo = (.error c, memo') := h
  rw [orNothing, StateT.run_bind, hrun]
  rfl

/-- A node that has no value counts as nothing. -/
theorem gives_orNothing_compute (known : ∀ m ∈ s.failed, s.graph.Circular m) (id : String) :
    Gives (Sound s) (orNothing (compute s id)) (s.graph.value s.record id) := by
  intro memo h
  obtain ⟨a, memo', run, isAnswer, h', -⟩ := exists_run_compute known h id
  by_cases hc : s.graph.Circular id
  · obtain ⟨c, rfl, -⟩ := isAnswer.cycle hc
    rw [run_orNothing_error run]
    exact ⟨(Graph.value_of_circular hc).symm, h'⟩
  · rw [isAnswer.value hc] at run
    rw [run_orNothing_ok run]
    exact ⟨rfl, h'⟩

theorem gives_safely (known : ∀ m ∈ s.failed, s.graph.Circular m) (e : Option Edge) :
    Gives (Sound s) (safely s e) (bringing (s.graph.value s.record) e) := by
  cases e with
  | none => exact Gives.pure Value.null
  | some e => exact gives_orNothing_compute known e.source

/-- The number of passes that a loop may make when nodes have the given values: what comes in as
the maximum, rounded toward zero and none unless it is finite, or the default if nothing is wired
to it. -/
def passLimit (g : Graph) (V : String → Value) (defaultCap : Int) (loop : String) : Int :=
  match g.inputEdge? loop (some "max") with
  | none => defaultCap
  | some e =>
    let most := (V e.source).asNumber
    if most.finite? = some true then most.truncate?.getD 0 else 0

/-- Whether the first pass of a loop comes to the roots: the condition holds, a pass is allowed, and
neither signal is given. -/
def reachesRoots (g : Graph) (V : String → Value) (defaultCap : Int) (loop : String) : Bool :=
  let input (handle : String) := bringing V (g.inputEdge? loop (some handle))
  (input "cond").truthy && 1 ≤ passLimit g V defaultCap loop && !(input "cont").truthy &&
    !(input "brk").truthy

/-- What a loop leaves in a root when nodes have the given values. -/
def left (g : Graph) (V : String → Value) (defaultCap : Int) (loop root : String) : Value :=
  if reachesRoots g V defaultCap loop then V root else .null

/-- No maximum of a loop is an integer too large for a double. -/
def HasPassLimit (g : Graph) (V : String → Value) (loop : String) : Prop :=
  ∀ e ∈ g.inputEdge? loop (some "max"), (V e.source).asNumber.finite? ≠ none

instance (V : String → Value) (loop : String) : Decidable (HasPassLimit g V loop) :=
  inferInstanceAs (Decidable (∀ e ∈ g.inputEdge? loop (some "max"), _))

theorem passCap_eq_passLimit {V : String → Value} {loop : String} {e : Edge} {cap : Int}
    (limit : HasPassLimit g V loop) (he : g.inputEdge? loop (some "max") = some e) :
    passCap (V e.source) = .ok (passLimit g V cap loop) := by
  rw [passCap, passLimit, he]
  have hfinite := limit e he
  dsimp only
  cases hf : (V e.source).asNumber.finite? with
  | none => exact absurd hf hfinite
  | some finite => cases finite <;> rfl

theorem gives_allowedPasses (known : ∀ m ∈ s.failed, s.graph.Circular m) {loop : String}
    (limit : HasPassLimit s.graph (s.graph.value s.record) loop) (cap : Int) :
    Gives (Sound s) (allowedPasses s loop cap).run
      (.ok (passLimit s.graph (s.graph.value s.record) cap loop)) := by
  rw [allowedPasses]
  cases hmax : s.graph.inputEdge? loop (some "max") with
  | none =>
    rw [passLimit, hmax]
    exact Gives.pure _
  | some e =>
    refine gives_bind_ok (gives_lift (gives_safely known (some e))) ?_
    rw [← passCap_eq_passLimit limit hmax]
    exact Gives.pure _

/-- Where something stops a loop, nothing is left. -/
theorem gives_unless {ε : Type} {stop : Bool} {x : ExceptT ε (StateM Memo) Value} {v : Value}
    (hx : Gives (Sound s) x.run (.ok v)) :
    Gives (Sound s) (if stop then return .null else x : ExceptT ε (StateM Memo) Value).run
      (.ok (if stop then .null else v)) := by
  cases stop with
  | true => exact Gives.pure _
  | false => exact hx

theorem left_eq (g : Graph) (V : String → Value) (cap : Int) (loop root : String) :
    left g V cap loop root =
      let input (handle : String) := bringing V (g.inputEdge? loop (some handle))
      if !(input "cond").truthy || decide (passLimit g V cap loop < 1) then .null
      else if (input "cont").truthy then .null
      else if (input "brk").truthy then .null
      else V root := by
  have hlimit : decide (1 ≤ passLimit g V cap loop) = !decide (passLimit g V cap loop < 1) := by
    rw [← decide_not, decide_eq_decide]
    omega
  rw [left, reachesRoots, hlimit]
  dsimp only
  cases (bringing V (g.inputEdge? loop (some "cond"))).truthy <;>
  cases decide (passLimit g V cap loop < 1) <;>
  cases (bringing V (g.inputEdge? loop (some "cont"))).truthy <;>
  cases (bringing V (g.inputEdge? loop (some "brk"))).truthy <;> rfl

theorem gives_loopOutcome (known : ∀ m ∈ s.failed, s.graph.Circular m) {loop : String}
    (limit : HasPassLimit s.graph (s.graph.value s.record) loop) (root : String) (cap : Int) :
    Gives (Sound s) (loopOutcome s loop root cap).run
      (.ok (left s.graph (s.graph.value s.record) cap loop root)) := by
  have input (handle : String) : Gives (Sound s)
      (liftM (safely s (s.graph.inputEdge? loop (some handle))) :
        ExceptT EvalFault (StateM Memo) Value).run
      (.ok (bringing (s.graph.value s.record) (s.graph.inputEdge? loop (some handle)))) :=
    gives_lift (gives_safely known _)
  rw [loopOutcome, left_eq]
  refine gives_bind_ok (input "cond") ?_
  refine gives_bind_ok (gives_allowedPasses known limit cap) ?_
  refine gives_unless (gives_bind_ok (input "cont") ?_)
  refine gives_unless (gives_bind_ok (input "brk") ?_)
  exact gives_unless (gives_lift (gives_orNothing_compute known root))

/-! ### The values of all nodes -/

/-- What loops leave in the roots that they govern. -/
def leftInRoots (g : Graph) (V : String → Value) (cap : Int) (roots : List Root) :
    List (String × Value) :=
  roots.filterMap fun root => (g.loopOf? root.node).map fun loop =>
    (root.node, left g V cap loop root.node)

theorem governedValues_cons (s : Setting) (cap : Int) (root : Root) (rest : List Root) :
    governedValues s cap s.graph.governed (root :: rest) =
      match s.graph.loopOf? root.node with
      | none => governedValues s cap s.graph.governed rest
      | some loop => do
        let value ← loopOutcome s loop root.node cap
        return (root.node, value) :: (← governedValues s cap s.graph.governed rest) :=
  rfl

theorem gives_governedValues (known : ∀ m ∈ s.failed, s.graph.Circular m) {roots : List Root}
    {cap : Int} (limit : ∀ root ∈ roots, ∀ loop ∈ s.graph.loopOf? root.node,
      HasPassLimit s.graph (s.graph.value s.record) loop) :
    Gives (Sound s) (governedValues s cap s.graph.governed roots).run
      (.ok (leftInRoots s.graph (s.graph.value s.record) cap roots)) := by
  induction roots with
  | nil => exact Gives.pure _
  | cons root rest ih =>
    have hrest := ih fun r hr => limit r (List.mem_cons_of_mem root hr)
    have hroot := limit root List.mem_cons_self
    rw [governedValues_cons, leftInRoots, List.filterMap_cons]
    cases hl : s.graph.loopOf? root.node with
    | none => exact hrest
    | some loop =>
      rw [hl] at hroot
      refine gives_bind_ok (gives_loopOutcome known (hroot loop rfl) root.node cap) ?_
      exact gives_bind_ok hrest (Gives.pure _)

theorem lookup_leftInRoots {V : String → Value} {cap : Int} (roots : List Root) (id : String) :
    (leftInRoots g V cap roots).lookup id =
      if id ∈ roots.map (·.node) then (g.loopOf? id).map fun loop => left g V cap loop id
      else none := by
  induction roots with
  | nil => rfl
  | cons root rest ih =>
    rw [leftInRoots, List.filterMap_cons, ← leftInRoots, List.map_cons]
    by_cases hroot : id = root.node
    · subst hroot
      rw [if_pos List.mem_cons_self]
      cases hl : g.loopOf? root.node with
      | none =>
        dsimp only [Option.map_none]
        rw [ih, hl]
        split <;> rfl
      | some loop => exact List.lookup_cons_self
    · have hmem : id ∈ root.node :: rest.map (·.node) ↔ id ∈ rest.map (·.node) := by
        simp [hroot]
      simp only [hmem, ← ih]
      cases g.loopOf? root.node with
      | none => rfl
      | some loop =>
        exact lookup_cons_of_ne hroot

theorem evaluate_eq {cap : Int} (limit : ∀ root ∈ g.roots, ∀ loop ∈ g.loopOf? root.node,
      HasPassLimit g (g.value record) loop) :
    evaluate g record cap = .ok (g.distinctIds.map fun id =>
      (id, ((leftInRoots g (g.value record) cap g.roots).lookup id).getD (g.value record id))) := by
  have done := settled g record
  have hgoverned : ((governedValues ⟨g, record, (settle g record).2⟩ cap g.governed g.roots).run
      (settle g record).1).1 = .ok (leftInRoots g (g.value record) cap g.roots) :=
    (gives_governedValues done.failed limit).run_fst done.sound
  have hvalue (o : Option Value) (id : String) :
      (o.orElse fun _ => (settle g record).1.lookup id).getD .null =
        o.getD (g.value record id) := by
    cases o with
    | none => exact done.lookup id
    | some v => rfl
  rw [evaluate]
  dsimp only
  rw [hgoverned]
  simp only [hvalue]
  rfl

/-- **Evaluation gives bottom-up values.**  Unless the maximum of a loop that governs a root is an
integer too large for a double, evaluation gives each node a value: its bottom-up value, and nothing
if it is circular, except where a loop governs a root and stops before the first pass comes to the
roots; then nothing is left in the root. -/
theorem evaluate_values {V : String → Value} (hV : g.IsBottomUp record V) (cap : Int)
    (limit : ∀ root ∈ g.roots, ∀ loop ∈ g.loopOf? root.node, HasPassLimit g V loop) :
    ∃ values, evaluate g record cap = .ok values ∧
      values.map (·.1) = g.distinctIds ∧
      (∀ id, id ∈ values.map (·.1) ↔ id ∈ g.ids) ∧
      (∀ id ∈ g.ids, (∀ root ∈ g.roots, root.node = id → g.loopOf? id = none) →
        values.lookup id = some (V id)) ∧
      ∀ root ∈ g.roots, ∀ loop ∈ g.loopOf? root.node,
        values.lookup root.node = some (left g V cap loop root.node) := by
  obtain rfl := hV.eq_value
  have hkeys (F : String → Value) :
      (g.distinctIds.map fun id => (id, F id)).map (·.1) = g.distinctIds := by
    rw [List.map_map]
    exact List.map_id _
  refine ⟨_, evaluate_eq limit, hkeys _, fun id => ?_, ?_, ?_⟩
  · rw [hkeys]
    exact Graph.mem_distinctIds
  · intro id hid free
    rw [List.lookup_graph _ (Graph.mem_distinctIds.2 hid), lookup_leftInRoots]
    by_cases hroot : id ∈ g.roots.map (·.node)
    · obtain ⟨root, hmem, hnode⟩ := List.mem_map.1 hroot
      rw [if_pos hroot, free root hmem hnode]
      rfl
    · rw [if_neg hroot]
      rfl
  · intro root hroot loop hloop
    have hid := Graph.mem_distinctIds.2 (Graph.mem_ids_of_mem_roots hroot)
    rw [List.lookup_graph _ hid, lookup_leftInRoots, if_pos (List.mem_map_of_mem hroot), hloop]
    rfl

/-- A sum that a loop captures in three passes at most, and a sum that is made of itself. -/
def pump : Graph where
  nodes := [⟨"yes", none, .const (.bool true) .boolean none⟩,
    ⟨"three", none, .const (.int 3) .number none⟩, ⟨"six", none, .operator "add" none []⟩,
    ⟨"self", none, .operator "add" none []⟩, ⟨"loop", none, .operator "while_loop" none []⟩,
    ⟨"total", none, .output "total" .null⟩]
  edges := [⟨none, "yes", none, "loop", some "cond"⟩, ⟨none, "three", none, "loop", some "max"⟩,
    ⟨none, "three", none, "six", some "a"⟩, ⟨none, "three", none, "six", some "b"⟩,
    ⟨none, "self", none, "self", some "a"⟩, ⟨none, "six", none, "total", some "in"⟩,
    ⟨none, "loop", some "body", "total", none⟩]
  metadata := []

theorem evaluate_values_pump :
    pump.IsBottomUp .null (pump.value .null) ∧
    (∀ root ∈ pump.roots, ∀ loop ∈ pump.loopOf? root.node,
      HasPassLimit pump (pump.value .null) loop) ∧
    ∃ values, evaluate pump .null 10 = .ok values ∧ values.lookup "total" = some (.int 6) ∧
      values.lookup "self" = some .null := by
  have hV := pump.isBottomUp_value .null
  have limit : ∀ root ∈ pump.roots, ∀ loop ∈ pump.loopOf? root.node,
      HasPassLimit pump (pump.value .null) loop := by decide
  obtain ⟨values, run, -, -, free, governed⟩ := evaluate_values hV 10 limit
  have htotal : left pump (pump.value .null) 10 "loop" "total" = .int 6 := by decide
  have hself : pump.value .null "self" = .null := by decide
  refine ⟨hV, limit, values, run, ?_, ?_⟩
  · rw [← htotal]
    exact governed ⟨"total", "total"⟩ (by decide) "loop" (by decide)
  · rw [← hself]
    exact free "self" (by decide) (by decide)

end NodeFlow.Preview
