import NodeFlow.Graph.Loops
import NodeFlow.Proofs.Digraph.Order
import NodeFlow.Proofs.Entries
import NodeFlow.Proofs.Graph.Dependency
import NodeFlow.Proofs.Nearest

/-!
# The nearest loop

The nodes that scope edges lead to are the *seeds* of the loops.  A node that data reaches from
seeds is governed by the loop that claims its nearest seed, and no other node is governed
(`loopOf?_nearest`): following data edges from the seeds is a breadth-first sweep of the nodes
(`governed_sweep`), and each node found is noted with the loop of the node before it.
-/

open Relation

namespace NodeFlow.Graph

variable (g : Graph)

/-- `g.Carries id other`: a data edge runs from one node to the other. -/
def Carries (id other : String) : Prop :=
  id ∈ g.ids ∧ other ∈ g.ids ∧
    ∃ e ∈ g.edges, g.isScopeEdge e = false ∧ e.source = id ∧ e.target = other

/-- The nodes that scope edges lead to, in the order of these edges. -/
def seeds : List String :=
  (((g.edges.filter g.isScopeEdge).map (·.target)).filter g.has).eraseDups

/-- The loop that claims a seed: the source of the first scope edge that leads to it. -/
def claimant? (seed : String) : Option String :=
  ((g.edges.filter g.isScopeEdge).find? (·.target == seed)).map (·.source)

variable {g} {id other loop : String} {a b : Governed}
  {reached mentions seen done waiting rest : List Governed}

theorem has_iff : g.has id = true ↔ id ∈ g.ids := by
  simp [has, ids]

/-! ### What is newly reached -/

/-- Newly reached are the nodes mentioned that were not reached before, each once. -/
theorem map_fst_newlyReached (reached mentions : List Governed) :
    (g.newlyReached reached mentions).map (·.1) =
      ((mentions.map (·.1)).filter fun id => g.has id && !reached.any (·.1 == id)).eraseDups := by
  induction mentions generalizing reached with
  | nil => rfl
  | cons a mentions ih =>
    obtain ⟨id, loop⟩ := a
    rw [newlyReached, List.map_cons, List.filter_cons]
    dsimp only
    split
    · rw [List.map_cons, ih, List.eraseDups_cons, List.filter_filter]
      congr 2
      refine List.filter_congr fun other _ => ?_
      rw [List.any_cons, Bool.not_or, BEq.comm (a := id)]
      cases other == id <;> simp
    · exact ih reached

theorem mem_map_newlyReached : id ∈ (g.newlyReached reached mentions).map (·.1) ↔
    id ∈ mentions.map (·.1) ∧ id ∈ g.ids ∧ id ∉ reached.map (·.1) := by
  rw [map_fst_newlyReached, List.mem_eraseDups, List.mem_filter, Bool.and_eq_true, has_iff]
  simp only [Bool.not_eq_true', List.any_eq_false, beq_iff_eq, List.mem_map, not_exists, not_and]

/-- The first mention of a node counts. -/
theorem lookup_of_mem_newlyReached (h : a ∈ g.newlyReached reached mentions) :
    mentions.lookup a.1 = some a.2 := by
  induction mentions generalizing reached with
  | nil => cases h
  | cons m mentions ih =>
    obtain ⟨id, loop⟩ := m
    have hfresh := (mem_map_newlyReached.1 (List.mem_map_of_mem h)).2
    rw [newlyReached] at h
    split at h
    · rcases List.mem_cons.1 h with rfl | h
      · exact List.lookup_cons_self
      · have hne : a.1 ≠ id := by
          rintro rfl
          exact (mem_map_newlyReached.1 (List.mem_map_of_mem h)).2.2 List.mem_cons_self
        rw [lookup_cons_of_ne hne]
        exact ih h
    · next hskip =>
      have hne : a.1 ≠ id := by
        rintro rfl
        refine hskip ?_
        rw [Bool.and_eq_true, has_iff]
        refine ⟨hfresh.1, ?_⟩
        simpa only [Bool.not_eq_true', List.any_eq_false, beq_iff_eq, List.mem_map, not_exists,
          not_and] using hfresh.2
      rw [lookup_cons_of_ne hne]
      exact ih h

theorem subset_of_newlyReached : g.newlyReached reached mentions ⊆ mentions :=
  fun _ h => mem_of_lookup (lookup_of_mem_newlyReached h)

/-! ### Seeds -/

theorem mem_ids_of_mem_seeds (h : id ∈ g.seeds) : id ∈ g.ids :=
  has_iff.1 (List.mem_filter.1 (List.mem_eraseDups.1 h)).2

theorem map_fst_governedFirst : g.governedFirst.map (·.1) = g.seeds := by
  rw [governedFirst, map_fst_newlyReached, List.map_map, seeds]
  congr 1
  exact List.filter_congr fun id _ => by simp

theorem claimant?_of_mem (h : a ∈ g.governedFirst) : g.claimant? a.1 = some a.2 := by
  rw [claimant?, ← lookup_map_find]
  exact lookup_of_mem_newlyReached h

/-! ### The sweep -/

theorem mem_ids_of_reached (h : Reached g.Carries g.seeds id) : id ∈ g.ids := by
  obtain ⟨seed, hseed, hpath⟩ := h
  rcases ReflTransGen.cases_tail hpath with rfl | ⟨other, -, hcarries⟩
  · exact mem_ids_of_mem_seeds hseed
  · exact hcarries.2.1

theorem carries_iff (hid : id ∈ g.ids) :
    g.Carries id other ↔ other ∈ (g.dataOut id).map (·.target) ∧ other ∈ g.ids := by
  simp only [Carries, dataOut, List.mem_map, List.mem_filter, Bool.and_eq_true, beq_iff_eq,
    Bool.not_eq_true']
  constructor
  · rintro ⟨-, hother, e, he, hdata, hsource, htarget⟩
    exact ⟨⟨e, ⟨he, hsource, hdata⟩, htarget⟩, hother⟩
  · rintro ⟨⟨e, ⟨he, hsource, hdata⟩, htarget⟩, hother⟩
    exact ⟨hid, hother, e, he, hdata, hsource, htarget⟩

/-- The nodes that the data edges of a node lead to and that were not seen, noted with its loop. -/
def foundFrom (g : Graph) (seen : List Governed) (a : Governed) : List Governed :=
  g.newlyReached seen ((g.dataOut a.1).map fun e => (e.target, a.2))

theorem nodup_map_foundFrom : ((g.foundFrom seen a).map (·.1)).Nodup := by
  rw [foundFrom, map_fst_newlyReached]
  exact nodup_eraseDups _

theorem mem_map_foundFrom (ha : a.1 ∈ g.ids) :
    other ∈ (g.foundFrom seen a).map (·.1) ↔ g.Carries a.1 other ∧ other ∉ seen.map (·.1) := by
  rw [foundFrom, mem_map_newlyReached, carries_iff ha, List.map_map, and_assoc]
  rfl

theorem snd_of_mem_foundFrom (h : b ∈ g.foundFrom seen a) : b.2 = a.2 := by
  obtain ⟨e, -, heq⟩ := List.mem_map.1 (subset_of_newlyReached h)
  rw [← heq]

/-- The nodes noted make up a sweep from the seeds, and each is noted with the loop that claims its
nearest seed. -/
structure Spread (g : Graph) (done waiting : List Governed) : Prop where
  sweep : Sweep g.Carries g.seeds (done.map (·.1)) (waiting.map (·.1))
  claimed : ∀ a ∈ done ++ waiting, ∃ seed ∈ g.seeds,
    g.seeds.idxOf seed = turn g.Carries g.seeds a.1 ∧ g.claimant? seed = some a.2

theorem spread_start (g : Graph) : g.Spread [] g.governedFirst where
  sweep := by
    rw [map_fst_governedFirst]
    exact sweep_start (nodup_eraseDups _)
  claimed a ha := by
    have hseed : a.1 ∈ g.seeds := map_fst_governedFirst ▸ List.mem_map_of_mem ha
    exact ⟨a.1, hseed, (turn_of_mem hseed).symm, claimant?_of_mem ha⟩

/-- What is found from the first waiting node is noted with its loop. -/
theorem Spread.step (h : g.Spread done (a :: rest)) :
    g.Spread (done ++ [a]) (rest ++ g.foundFrom (done ++ a :: rest) a) := by
  have ha : a.1 ∈ g.ids := mem_ids_of_reached (h.sweep.reached a.1 (by simp))
  have hfound (other : String) : other ∈ (g.foundFrom (done ++ a :: rest) a).map (·.1) ↔
      g.Carries a.1 other ∧ other ∉ done.map (·.1) ++ a.1 :: rest.map (·.1) := by
    rw [mem_map_foundFrom ha, List.map_append, List.map_cons]
  constructor
  · rw [List.map_append, List.map_append]
    exact h.sweep.step nodup_map_foundFrom hfound
  · intro b hb
    have hb : b ∈ done ++ a :: rest ∨ b ∈ g.foundFrom (done ++ a :: rest) a := by
      simpa [or_assoc] using hb
    rcases hb with hb | hb
    · exact h.claimed b hb
    · obtain ⟨hcarries, hnew⟩ := (hfound b.1).1 (List.mem_map_of_mem hb)
      obtain ⟨seed, hseed, hturn, hclaimant⟩ := h.claimed a (by simp)
      rw [(h.sweep.depth_turn_of_new hcarries hnew).2, snd_of_mem_foundFrom hb]
      exact ⟨seed, hseed, hturn, hclaimant⟩

/-- There are steps enough for every waiting node, as no node waits twice. -/
theorem Spread.run {steps : Nat} (h : g.Spread done waiting)
    (hsteps : g.nodes.length ≤ steps + done.length) :
    g.Spread (g.spreadLoops steps (done ++ waiting) waiting) [] := by
  induction steps generalizing done waiting with
  | zero =>
    have hsubset : done.map (·.1) ++ waiting.map (·.1) ⊆ g.ids :=
      fun id hid => mem_ids_of_reached (h.sweep.reached id hid)
    have hlength := (h.sweep.nodup.subperm hsubset).length_le
    rw [List.length_append, List.length_map, List.length_map, length_ids] at hlength
    obtain rfl : waiting = [] := List.length_eq_zero_iff.1 (by omega)
    simpa [spreadLoops] using h
  | succ steps ih =>
    cases waiting with
    | nil => simpa [spreadLoops] using h
    | cons a rest =>
      have hrun := ih h.step (by
        rw [List.length_append, List.length_singleton]
        omega)
      rw [spreadLoops]
      simpa [foundFrom] using hrun

theorem governed_sweep (g : Graph) : g.Spread g.governed [] :=
  (spread_start g).run (Nat.le_add_right _ _)

/-! ### The loop of a node -/

theorem isSome_loopOf?_iff : (g.loopOf? id).isSome ↔ Reached g.Carries g.seeds id := by
  rw [← (governed_sweep g).sweep.mem_done_iff]
  constructor
  · intro h
    obtain ⟨loop, hloop⟩ := Option.isSome_iff_exists.1 h
    exact List.mem_map_of_mem (mem_of_lookup hloop)
  · intro h
    obtain ⟨a, ha, rfl⟩ := List.mem_map.1 h
    rw [Option.isSome_iff_ne_none]
    intro hnone
    have hdiffers := List.lookup_eq_none_iff.1 hnone a ha
    simp at hdiffers

theorem loopOf?_eq_none_iff : g.loopOf? id = none ↔ ¬ Reached g.Carries g.seeds id := by
  rw [← isSome_loopOf?_iff, Option.not_isSome_iff_eq_none]

theorem exists_isNearest_of_loopOf? (h : g.loopOf? id = some loop) :
    ∃ seed, IsNearest g.Carries g.seeds seed id ∧ g.claimant? seed = some loop := by
  have hmem : (id, loop) ∈ g.governed ++ [] := by
    rw [List.append_nil]
    exact mem_of_lookup h
  obtain ⟨seed, hseed, hturn, hclaimant⟩ := (governed_sweep g).claimed _ hmem
  obtain ⟨nearest, hnearest, hturn'⟩ := exists_isNearest ((governed_sweep g).sweep.reached id
    (List.mem_append_left _ (List.mem_map_of_mem (mem_of_lookup h))))
  obtain rfl : seed = nearest := (List.idxOf_inj hseed).1 (hturn.trans hturn'.symm)
  exact ⟨seed, hnearest, hclaimant⟩

theorem loopOf?_eq_some_iff : g.loopOf? id = some loop ↔
    ∃ seed, IsNearest g.Carries g.seeds seed id ∧ g.claimant? seed = some loop := by
  refine ⟨exists_isNearest_of_loopOf?, ?_⟩
  rintro ⟨seed, hnearest, hclaimant⟩
  obtain ⟨loop', hloop⟩ := Option.isSome_iff_exists.1 (isSome_loopOf?_iff.2 hnearest.reached)
  obtain ⟨seed', hnearest', hclaimant'⟩ := exists_isNearest_of_loopOf? hloop
  obtain rfl := hnearest.unique hnearest'
  rw [hloop, ← hclaimant', hclaimant]

/-- **Each node belongs to its nearest loop.**  A node that data reaches from no seed is free.  Any
other node is governed by the loop that claims, of the seeds at the least distance from it in data
edges, the one listed first.  So a data edge never leads from a governed node to a free one, and all
nodes that data comes from to a free node are free. -/
theorem loopOf?_nearest (g : Graph) (id : String) :
    (g.loopOf? id = none ↔ ∀ seed ∈ g.seeds, ¬ ReflTransGen g.Carries seed id) ∧
    (∀ loop, g.loopOf? id = some loop ↔
      ∃ seed, IsNearest g.Carries g.seeds seed id ∧ g.claimant? seed = some loop) ∧
    (∀ other, g.Carries id other → (g.loopOf? id).isSome → (g.loopOf? other).isSome) ∧
    ∀ other, ReflTransGen g.Carries other id → g.loopOf? id = none → g.loopOf? other = none := by
  refine ⟨?_, fun loop => loopOf?_eq_some_iff, fun other hcarries h => ?_,
    fun other hpath hfree => ?_⟩
  · rw [loopOf?_eq_none_iff, Reached]
    simp only [not_exists, not_and]
  · exact isSome_loopOf?_iff.2 ((isSome_loopOf?_iff.1 h).tail hcarries)
  · rw [loopOf?_eq_none_iff] at hfree ⊢
    rintro ⟨seed, hseed, hseedPath⟩
    exact hfree ⟨seed, hseed, hseedPath.trans hpath⟩

/-- A node on which the bodies of two loops meet. -/
def meeting : Graph where
  nodes := [⟨"first", none, .operator "while_loop" none []⟩,
    ⟨"second", none, .operator "while_loop" none []⟩, ⟨"near", none, .operator "not" none []⟩,
    ⟨"far", none, .operator "not" none []⟩, ⟨"both", none, .operator "and" none []⟩]
  edges := [⟨none, "second", some "body", "far", none⟩, ⟨none, "first", some "body", "near", none⟩,
    ⟨none, "near", none, "both", some "a"⟩, ⟨none, "far", none, "both", some "b"⟩]
  metadata := []

-- both seeds are one edge away, and the order of the scope edges decides
example : meeting.loopOf? "both" = some "second" := by decide

end NodeFlow.Graph
