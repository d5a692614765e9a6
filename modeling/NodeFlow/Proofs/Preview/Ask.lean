import NodeFlow.Proofs.Preview.Visit

/-!
# Questions in one context

However many nodes were asked for in a context before, and in whatever order, the answer for a node
is the same (`ask_after`): its bottom-up value, or the notice of a cycle that can be reached from
it.  The memo holds nothing but such values, and between questions no node is being visited.
-/

open Relation NodeFlow.Outcome

namespace NodeFlow.Preview

variable {s : Setting} {id : String} {memo : Memo}

theorem run_compute (s : Setting) (id : String) (memo : Memo) :
    (compute s id).run memo =
      (((ask s id).run ⟨memo, []⟩).1, ((ask s id).run ⟨memo, []⟩).2.memo) := rfl

theorem exists_settles_ask (known : ∀ m ∈ s.failed, s.graph.Circular m) (id : String) :
    ∃ a, Settles s [] (ask s id) a ∧ IsAnswer s id a :=
  exists_settles_visit known (Graph.trail_start (Nat.lt_succ_self _) id)

/-- An answer that is the value of a node is in the memo from then on. -/
theorem exists_mem_memo_of_run {c c' : Context} {v : Value}
    (h : (ask s id).run c = (.ok v, c')) (hid : id ∈ s.graph.ids) : ∃ w, (id, w) ∈ c'.memo := by
  obtain ⟨n, hn⟩ := Option.isSome_iff_exists.1 (Graph.node?_isSome_iff.2 hid)
  rw [ask, run_visit] at h
  cases hv : c.memo.lookup id with
  | some w =>
    rw [hv] at h
    obtain rfl : c = c' := congrArg Prod.snd h
    exact ⟨w, mem_of_lookup hv⟩
  | none =>
    simp only [hv, hn] at h
    split at h
    · cases congrArg Prod.fst h
    · rw [run_bind] at h
      split at h
      · next w c₁ _ =>
        obtain rfl : c₁.remember id w = c' := congrArg Prod.snd h
        exact ⟨w, List.mem_append_right _ (List.mem_singleton_self _)⟩
      · cases congrArg Prod.fst h

/-- The context after some nodes were asked for one after the other, whatever the answers were. -/
def asked (s : Setting) (ids : List String) : Context :=
  ids.foldl (fun c id => ((ask s id).run c).2) .empty

/-- Questions leave the context sound, with no node being visited. -/
theorem asked_sound (known : ∀ m ∈ s.failed, s.graph.Circular m) (ids : List String) :
    ∃ memo, asked s ids = ⟨memo, []⟩ ∧ Sound s memo := by
  have step (ids : List String) (memo : Memo) (h : Sound s memo) : ∃ memo',
      ids.foldl (fun c id => ((ask s id).run c).2) ⟨memo, []⟩ = ⟨memo', []⟩ ∧ Sound s memo' := by
    induction ids generalizing memo with
    | nil => exact ⟨memo, rfl, h⟩
    | cons id rest ih =>
      obtain ⟨a, settles, -⟩ := exists_settles_ask known id
      obtain ⟨memo', run, h', -⟩ := settles memo h
      rw [List.foldl_cons, run]
      exact ih memo' h'
  exact step ids [] (sound_nil s)

/-- After whatever questions, the answer to a question is the same right one. -/
theorem exists_run_ask (known : ∀ m ∈ s.failed, s.graph.Circular m) (id : String) :
    ∃ answer, IsAnswer s id answer ∧ ∀ before, ∃ memo,
      (ask s id).run (asked s before) = (answer, ⟨memo, []⟩) ∧ Sound s memo := by
  obtain ⟨answer, settles, isAnswer⟩ := exists_settles_ask known id
  refine ⟨answer, isAnswer, fun before => ?_⟩
  obtain ⟨memo, hmemo, sound⟩ := asked_sound known before
  obtain ⟨memo', run, sound', -⟩ := settles memo sound
  exact ⟨memo', by rw [hmemo, run], sound'⟩

/-- **Answers do not depend on earlier questions.**  After any questions in one context, the answer
for a node that is not circular is its bottom-up value, nothing for a name that is no node's, and
the answer for a circular node is the notice of a node on a cycle that can be reached from it.  It
is the answer that an empty context gives.  Afterwards no node is being visited, and the memo holds
the values of nodes that are not circular and nothing else. -/
theorem ask_after {g : Graph} {record : Value} {V : String → Value}
    (hV : g.IsBottomUp record V) (before : List String) (id : String) :
    let s : Setting := ⟨g, record, []⟩
    let reply := (ask s id).run (asked s before)
    (¬ g.Circular id → reply.1 = .ok (V id)) ∧
    (g.node? id = none → reply.1 = .ok .null) ∧
    (g.Circular id →
      ∃ c, reply.1 = .error ⟨c⟩ ∧ ReflTransGen g.Depends id c ∧ g.OnCycle c) ∧
    reply.1 = ((ask s id).run .empty).1 ∧
    (compute s id).run (asked s before).memo = (reply.1, reply.2.memo) ∧
    reply.2.visiting = [] ∧
    ∀ entry ∈ reply.2.memo,
      entry.1 ∈ g.ids ∧ ¬ g.Circular entry.1 ∧ entry.2 = V entry.1 := by
  obtain rfl := hV.eq_value
  intro s reply
  obtain ⟨answer, isAnswer, runs⟩ := exists_run_ask (s := s) nofun id
  obtain ⟨memo, run, sound⟩ := runs before
  obtain ⟨memo₀, run₀, -⟩ := runs []
  have hreply : reply = (answer, ⟨memo, []⟩) := run
  rw [hreply]
  refine ⟨isAnswer.value, fun hn => ?_, fun hc => ?_, ?_, ?_, rfl, sound⟩
  · show answer = _
    rw [isAnswer.value (Graph.not_circular_of_node?_eq_none hn), Graph.value_of_absent hn]
  · obtain ⟨c, hc', reach, cycle⟩ := isAnswer.cycle hc
    exact ⟨c, hc', reach, cycle.resolve_right nofun⟩
  · exact (congrArg Prod.fst run₀).symm
  · obtain ⟨memo', hmemo', -⟩ := asked_sound (s := s) nofun before
    rw [hmemo'] at run ⊢
    rw [run_compute, run]

/-- A sum and a product that are made of each other, and a product of constants beside them. -/
def knot : Graph where
  nodes := [⟨"sum", none, .operator "add" none []⟩, ⟨"two", none, .const (.int 2) .number none⟩,
    ⟨"product", none, .operator "multiply" none []⟩,
    ⟨"square", none, .operator "multiply" none []⟩]
  edges := [⟨none, "two", none, "sum", some "a"⟩, ⟨none, "product", none, "sum", some "b"⟩,
    ⟨none, "sum", none, "product", some "a"⟩, ⟨none, "two", none, "product", some "b"⟩,
    ⟨none, "two", none, "square", some "a"⟩, ⟨none, "two", none, "square", some "b"⟩]
  metadata := []

theorem ask_after_knot :
    knot.IsBottomUp .null (knot.value .null) ∧
    (∃ c, ((ask ⟨knot, .null, []⟩ "sum").run (asked ⟨knot, .null, []⟩ ["product", "two"])).1 =
      .error ⟨c⟩ ∧ ReflTransGen knot.Depends "sum" c ∧ knot.OnCycle c) ∧
    ((ask ⟨knot, .null, []⟩ "square").run (asked ⟨knot, .null, []⟩ ["product", "sum"])).1 =
      .ok (knot.value .null "square") := by
  have hV := knot.isBottomUp_value .null
  have hsum := ask_after hV ["product", "two"] "sum"
  have hsquare := ask_after hV ["product", "sum"] "square"
  exact ⟨hV, hsum.2.2.1 (by decide), hsquare.1 (by decide)⟩

end NodeFlow.Preview
