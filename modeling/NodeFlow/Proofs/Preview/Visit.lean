import NodeFlow.Proofs.Entries
import NodeFlow.Proofs.Outcome
import NodeFlow.Proofs.Preview.Value

/-!
# Asking for values

Values are asked for one after the other in one context, and what one question leaves behind is
there for the next.  `Settles s way x a` says that the answer of `x` is `a` in every sound context:
one whose memo holds values of nodes that are not circular, and nothing else, and in which the nodes
on the way are being visited.  The context stays sound, also where a cycle was noticed on the way
down, and no more and no fewer nodes are being visited than before.

A visit of a node that is not circular settles on the node's value, and one of a circular node on
the notice of a cycle (`exists_settles_visit`).
-/

open Relation NodeFlow.Outcome

namespace NodeFlow.Preview

variable {s : Setting} {way : List String} {memo : Memo} {id : String} {α β : Type}

/-- A memo in which each entry is the value of a node that is not circular. -/
def Sound (s : Setting) (memo : Memo) : Prop :=
  ∀ entry ∈ memo, entry.1 ∈ s.graph.ids ∧ ¬ s.graph.Circular entry.1 ∧
    entry.2 = s.graph.value s.record entry.1

theorem sound_nil (s : Setting) : Sound s [] := by
  intro entry h
  cases h

theorem Sound.lookup {v : Value} (h : Sound s memo) (hv : memo.lookup id = some v) :
    id ∈ s.graph.ids ∧ ¬ s.graph.Circular id ∧ v = s.graph.value s.record id :=
  h (id, v) (mem_of_lookup hv)

theorem Sound.concat (h : Sound s memo) (hid : id ∈ s.graph.ids) (hc : ¬ s.graph.Circular id) :
    Sound s (memo ++ [(id, s.graph.value s.record id)]) := by
  intro entry hentry
  rcases List.mem_append.1 hentry with hentry | hentry
  · exact h entry hentry
  · obtain rfl := List.mem_singleton.1 hentry
    exact ⟨hid, hc, rfl⟩

/-! ### Settled computations -/

/-- Whatever is in the memo, `x` answers `a`, and it leaves a sound context in which the same nodes
are being visited. -/
def Settles (s : Setting) (way : List String) (x : Visit α) (a : Except Cycle α) : Prop :=
  ∀ memo, Sound s memo → ∃ memo', x.run ⟨memo, way⟩ = (a, ⟨memo', way⟩) ∧ Sound s memo' ∧
    memo <+: memo'

theorem settles_pure (v : α) : Settles s way (pure v) (.ok v) :=
  fun memo h => ⟨memo, rfl, h, List.prefix_rfl⟩

theorem settles_throw (c : Cycle) : Settles s way (throw c : Visit α) (.error c) :=
  fun memo h => ⟨memo, rfl, h, List.prefix_rfl⟩

theorem Settles.bind {x : Visit α} {a : Except Cycle α} {f : α → Visit β} {b : α → Except Cycle β}
    (hx : Settles s way x a) (hf : ∀ v, a = .ok v → Settles s way (f v) (b v)) :
    Settles s way (x >>= f) (a >>= b) := by
  intro memo h
  obtain ⟨memo₁, run₁, h₁, grows₁⟩ := hx memo h
  rw [run_bind, run₁]
  cases a with
  | error c => exact ⟨memo₁, rfl, h₁, grows₁⟩
  | ok v =>
    obtain ⟨memo₂, run₂, h₂, grows₂⟩ := hf v rfl memo₁ h₁
    exact ⟨memo₂, run₂, h₂, grows₁.trans grows₂⟩

theorem settles_mapM {f : α → Visit β} {a : α → Except Cycle β} {l : List α}
    (h : ∀ i ∈ l, Settles s way (f i) (a i)) : Settles s way (l.mapM f) (l.mapM a) := by
  induction l with
  | nil => exact settles_pure []
  | cons i rest ih =>
    rw [List.mapM_cons, List.mapM_cons]
    refine (h i List.mem_cons_self).bind fun v _ => ?_
    refine (ih fun j hj => h j (List.mem_cons_of_mem i hj)).bind fun vs _ => ?_
    exact settles_pure (v :: vs)

theorem settles_brought {ask : String → Visit Value} {answer : String → Except Cycle Value}
    {e : Option Edge} (h : ∀ e' ∈ e, Settles s way (ask e'.source) (answer e'.source)) :
    Settles s way (brought ask e) (brought answer e) := by
  cases e with
  | none => exact settles_pure Value.null
  | some e => exact h e rfl

/-- A value made of values that are asked for settles on what their answers amount to. -/
theorem settles_originValue {ask : String → Visit Value} {answer : String → Except Cycle Value}
    {origin : Origin} (h : ∀ e ∈ origin.edges, Settles s way (ask e.source) (answer e.source)) :
    Settles s way (originValue s.record ask origin) (originValue s.record answer origin) := by
  cases origin with
  | path | constant | unknown => exact settles_pure _
  | operation op inputs =>
    refine (settles_mapM ?_).bind fun args _ => settles_pure _
    rintro ⟨port, e⟩ hinput
    refine (settles_brought fun e' he => ?_).bind fun v _ => settles_pure (port, v)
    exact h e' (List.mem_filterMap.2 ⟨(port, e), hinput, he⟩)
  | edge e => exact settles_brought fun e' he => h e' (Option.mem_toList.2 he)

/-- A node that is visited meanwhile is left again, however that ends. -/
theorem Settles.during {x : Visit α} {a : Except Cycle α} (h : Settles s (id :: way) x a) :
    Settles s way (during id x) a := by
  intro memo hmemo
  obtain ⟨memo', run, h', grows⟩ := h memo hmemo
  refine ⟨memo', ?_, h', grows⟩
  show (match x.run ⟨memo, id :: way⟩ with | (a, c) => (a, c.leave id)) = _
  rw [run]
  simp only [Context.leave, List.erase_cons_head]

theorem settles_remember (hid : id ∈ s.graph.ids) (hc : ¬ s.graph.Circular id) :
    Settles s way
      (do
        modify (·.remember id (s.graph.value s.record id))
        return s.graph.value s.record id)
      (.ok (s.graph.value s.record id)) :=
  fun _ hmemo => ⟨_, rfl, hmemo.concat hid hc, List.prefix_append _ _⟩

/-! ### Answers of the nodes that a node depends on -/

theorem brought_ok {V : String → Value} {answer : String → Except Cycle Value} {e : Option Edge}
    (h : ∀ e' ∈ e, answer e'.source = .ok (V e'.source)) :
    brought answer e = .ok (bringing V e) := by
  cases e with
  | none => rfl
  | some e => exact h e rfl

theorem originValue_ok {record : Value} {V : String → Value}
    {answer : String → Except Cycle Value} {origin : Origin}
    (h : ∀ e ∈ origin.edges, answer e.source = .ok (V e.source)) :
    originValue record answer origin = .ok (meaning record V origin) := by
  cases origin with
  | path | constant | unknown => rfl
  | operation op inputs =>
    refine bind_eq_ok_iff.2 ⟨_, mapM_ok (b := fun input => (input.1, bringing V input.2)) ?_, rfl⟩
    rintro ⟨port, e⟩ hinput
    dsimp only
    rw [brought_ok fun e' he => h e' (List.mem_filterMap.2 ⟨(port, e), hinput, he⟩)]
    rfl
  | edge e => exact brought_ok fun e' he => h e' (Option.mem_toList.2 he)

/-- A cycle that is noticed for an origin was noticed at one of its sources. -/
theorem originValue_eq_error {record : Value} {answer : String → Except Cycle Value}
    {origin : Origin} {c : Cycle} (h : originValue record answer origin = .error c) :
    ∃ e ∈ origin.edges, answer e.source = .error c := by
  cases origin with
  | path | constant | unknown => cases h
  | operation op inputs =>
    rcases bind_eq_error_iff.1 h with h | ⟨args, -, h⟩
    · obtain ⟨⟨port, e⟩, hinput, h⟩ := exists_of_mapM_eq_error h
      rcases bind_eq_error_iff.1 h with h | ⟨v, -, h⟩
      · cases e with
        | none => cases h
        | some e => exact ⟨e, List.mem_filterMap.2 ⟨(port, some e), hinput, rfl⟩, h⟩
      · cases h
    · cases h
  | edge e =>
    cases e with
    | none => cases h
    | some e => exact ⟨e, List.mem_singleton_self e, h⟩

/-- A value is made only if each source has one. -/
theorem originValue_eq_ok {record v : Value} {answer : String → Except Cycle Value}
    {origin : Origin} (h : originValue record answer origin = .ok v) :
    ∀ e ∈ origin.edges, ∃ w, answer e.source = .ok w := by
  cases origin with
  | path | constant | unknown => nofun
  | operation op inputs =>
    intro e he
    obtain ⟨⟨port, -⟩, hinput, rfl⟩ := List.mem_filterMap.1 he
    obtain ⟨args, hargs, -⟩ := bind_eq_ok_iff.1 h
    obtain ⟨arg, -, harg⟩ := exists_of_mapM_eq_ok hargs (port, some e) hinput
    obtain ⟨w, hw, -⟩ := bind_eq_ok_iff.1 harg
    exact ⟨w, hw⟩
  | edge e =>
    intro e' he
    obtain rfl : e = some e' := Option.mem_toList.1 he
    exact ⟨v, h⟩

/-! ### The answer for a node -/

/-- The right answer for a node: its value unless it is circular, and otherwise the notice of a node
that can be reached from it and lies on a cycle, or is known to have no value. -/
structure IsAnswer (s : Setting) (id : String) (a : Except Cycle Value) : Prop where
  value : ¬ s.graph.Circular id → a = .ok (s.graph.value s.record id)
  cycle : s.graph.Circular id → ∃ c, a = .error ⟨c⟩ ∧ ReflTransGen s.graph.Depends id c ∧
    (s.graph.OnCycle c ∨ c ∈ s.failed)

theorem IsAnswer.circular_of_error {c : Cycle} (h : IsAnswer s id (.error c)) :
    s.graph.Circular id := by
  by_contra hc
  cases h.value hc

theorem isAnswer_absent (hn : s.graph.node? id = none) : IsAnswer s id (.ok .null) where
  value _ := by rw [Graph.value_of_absent hn]
  cycle hc := absurd hc (Graph.not_circular_of_node?_eq_none hn)

/-- A node that is met again, or is known to have no value, is noticed itself. -/
theorem isAnswer_refused (known : ∀ m ∈ s.failed, s.graph.Circular m)
    (h : s.graph.OnCycle id ∨ id ∈ s.failed) : IsAnswer s id (.error ⟨id⟩) where
  value hc := absurd (h.elim Graph.OnCycle.circular (known id)) hc
  cycle _ := ⟨id, rfl, .refl, h⟩

/-- What right answers for the sources amount to is the right answer for the node. -/
theorem isAnswer_originValue {n : Node} {answer : String → Except Cycle Value}
    (hn : s.graph.node? id = some n)
    (h : ∀ e ∈ (s.graph.origin n).edges, IsAnswer s e.source (answer e.source)) :
    IsAnswer s id (originValue s.record answer (s.graph.origin n)) where
  value hc := by
    rw [Graph.value_of_node hc hn]
    exact originValue_ok fun e he => (h e he).value (Graph.not_circular_source hc hn he)
  cycle hc := by
    obtain ⟨other, hd, ho⟩ := Graph.circular_iff.1 hc
    obtain ⟨e, he, rfl⟩ := (Graph.depends_iff hn).1 hd
    cases hout : originValue s.record answer (s.graph.origin n) with
    | ok v =>
      obtain ⟨w, hw⟩ := originValue_eq_ok hout e he
      obtain ⟨c, hc', -⟩ := (h e he).cycle ho
      rw [hw] at hc'
      cases hc'
    | error c =>
      obtain ⟨e', he', hc'⟩ := originValue_eq_error hout
      have ha := h e' he'
      rw [hc'] at ha
      obtain ⟨c', hc'', reach, cycle⟩ := ha.cycle ha.circular_of_error
      exact ⟨c', hc'', reach.head (Graph.depends_source hn he'), cycle⟩

/-- What a visit does in a context. -/
theorem run_visit (depth : Nat) (id : String) (c : Context) :
    (visit s (depth + 1) id).run c =
      (match c.memo.lookup id with
      | some value => return value
      | none =>
        match s.graph.node? id with
        | none => return .null
        | some n =>
          if c.visiting.contains id || s.failed.contains id then throw ⟨id⟩
          else do
            let value ← during id (originValue s.record (visit s depth) (s.graph.origin n))
            modify (·.remember id value)
            return value : Visit Value).run c := by
  rw [visit, run_bind]
  show (match c.memo.lookup id with | some value => _ | none => _ : Visit Value).run c = _
  cases c.memo.lookup id with
  | some value => rfl
  | none =>
    cases s.graph.node? id with
    | none => rfl
    | some n =>
      dsimp only
      split <;> rfl

/-- A value in the memo is the answer at once, so a visit settles on the right answer if it does so
where there is none. -/
theorem Settles.visit {depth : Nat} {a : Except Cycle Value} {x : Visit Value}
    (h : Settles s way x a) (ha : IsAnswer s id a)
    (miss : ∀ memo, memo.lookup id = none →
      (visit s (depth + 1) id).run ⟨memo, way⟩ = x.run ⟨memo, way⟩) :
    Settles s way (visit s (depth + 1) id) a := by
  intro memo hmemo
  cases hv : memo.lookup id with
  | none =>
    rw [miss memo hv]
    exact h memo hmemo
  | some v =>
    obtain ⟨-, hc, rfl⟩ := hmemo.lookup hv
    refine ⟨memo, ?_, hmemo, List.prefix_rfl⟩
    rw [run_visit, hv, ha.value hc]
    rfl

theorem settles_visit_absent {depth : Nat} (hn : s.graph.node? id = none) :
    Settles s way (visit s (depth + 1) id) (.ok .null) := by
  refine (settles_pure Value.null).visit (isAnswer_absent hn) fun memo hv => ?_
  rw [run_visit, hv]
  simp only [hn]

theorem settles_visit_refused {depth : Nat} {n : Node} (hn : s.graph.node? id = some n)
    (refused : id ∈ way ∨ id ∈ s.failed) (ha : IsAnswer s id (.error ⟨id⟩)) :
    Settles s way (visit s (depth + 1) id) (.error ⟨id⟩) := by
  refine (settles_throw ⟨id⟩).visit ha fun memo hv => ?_
  rw [run_visit, hv]
  simp only [hn]
  rw [if_pos (by simpa using refused)]

theorem settles_visit_fresh {depth : Nat} {n : Node} {a : Except Cycle Value}
    (hn : s.graph.node? id = some n) (fresh : ¬ (id ∈ way ∨ id ∈ s.failed))
    (ha : IsAnswer s id a)
    (h : Settles s (id :: way)
      (originValue s.record (Preview.visit s depth) (s.graph.origin n)) a) :
    Settles s way (visit s (depth + 1) id) a := by
  have remembered : Settles s way
      (do
        let value ← during id (originValue s.record (Preview.visit s depth) (s.graph.origin n))
        modify (·.remember id value)
        return value) (a >>= .ok) := by
    refine h.during.bind fun v hv => ?_
    have hc : ¬ s.graph.Circular id := by
      intro hc
      obtain ⟨c, hc', -⟩ := ha.cycle hc
      rw [hv] at hc'
      cases hc'
    obtain rfl : s.graph.value s.record id = v := Except.ok.inj ((ha.value hc).symm.trans hv)
    exact settles_remember (Graph.mem_ids_of_node? hn) hc
  have unit : (a >>= .ok) = a := by cases a <;> rfl
  rw [unit] at remembered
  refine remembered.visit ha fun memo hv => ?_
  rw [run_visit, hv]
  simp only [hn]
  rw [if_neg (by simpa using fresh)]

/-- Every visit settles on the right answer. -/
theorem exists_settles_visit (known : ∀ m ∈ s.failed, s.graph.Circular m) {depth : Nat}
    (trail : Trail s.graph.Depends s.graph.ids way id depth) :
    ∃ a, Settles s way (visit s depth id) a ∧ IsAnswer s id a := by
  induction depth generalizing way id with
  | zero => exact absurd trail.pos (Nat.lt_irrefl 0)
  | succ depth ih =>
    cases hn : s.graph.node? id with
    | none => exact ⟨_, settles_visit_absent hn, isAnswer_absent hn⟩
    | some n =>
      by_cases refused : id ∈ way ∨ id ∈ s.failed
      · have ha := isAnswer_refused known (refused.imp_left (trail.leads id))
        exact ⟨_, settles_visit_refused hn refused ha, ha⟩
      · have answers : ∀ m, ∃ a, s.graph.Depends id m →
            Settles s (id :: way) (visit s depth m) a ∧ IsAnswer s m a := by
          intro m
          by_cases hd : s.graph.Depends id m
          · obtain ⟨a, ha⟩ := ih (trail.step (Graph.mem_ids_of_node? hn)
              (fun hw => refused (.inl hw)) hd)
            exact ⟨a, fun _ => ha⟩
          · exact ⟨.ok .null, fun h => absurd h hd⟩
        choose answer hanswer using answers
        have hsource (e : Edge) (he : e ∈ (s.graph.origin n).edges) :=
          hanswer e.source (Graph.depends_source hn he)
        have ha := isAnswer_originValue hn fun e he => (hsource e he).2
        exact ⟨_, settles_visit_fresh hn refused ha
          (settles_originValue fun e he => (hsource e he).1), ha⟩

end NodeFlow.Preview
