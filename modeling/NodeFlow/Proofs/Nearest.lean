import Mathlib.Data.List.Nodup
import Mathlib.Logic.Relation
import Mathlib.Order.Lattice.Nat

/-!
# The nearest of several starts

From some listed starts, steps lead to other places.  A place that is reached has a *depth*, its
least distance from any start, and a *turn*, the position of the first start at that distance.  That
start is the nearest one (`exists_isNearest`), and no other is (`IsNearest.unique`).

A breadth-first *sweep* follows the steps from one waiting place at a time.  The places that wait
are in the order of their depths and turns, and at most one step apart (`Level`).  So a place that
is new has its depth and turn from the one whose steps are followed (`Sweep.depth_turn_of_new`): all
places that come earlier are done (`Sweep.mem_done`), and those with a step to it would have reached
it already.
-/

open Relation

namespace NodeFlow

variable {α : Type} (r : α → α → Prop)

/-- `Path r a k b`: there is a path of `k` steps from `a` to `b`. -/
inductive Path (a : α) : Nat → α → Prop
  | start : Path a 0 a
  | step {k : Nat} {b c : α} (path : Path a k b) (h : r b c) : Path a (k + 1) c

/-- The length of a shortest path from `a` to `b` is `k`. -/
def IsDistance (a b : α) (k : Nat) : Prop := Path r a k b ∧ ∀ j, Path r a j b → k ≤ j

/-- A place that is reached from some start. -/
def Reached (starts : List α) (a : α) : Prop := ∃ start ∈ starts, ReflTransGen r start a

theorem Reached.tail {r : α → α → Prop} {starts : List α} {a b : α} (h : Reached r starts a)
    (hstep : r a b) : Reached r starts b := by
  obtain ⟨start, hstart, hpath⟩ := h
  exact ⟨start, hstart, hpath.tail hstep⟩

variable [DecidableEq α]

/-- Of the starts at the least distance from `a`, the one listed first is `start`. -/
def IsNearest (starts : List α) (start a : α) : Prop :=
  start ∈ starts ∧ ∃ k, IsDistance r start a k ∧
    ∀ other ∈ starts, ∀ j, IsDistance r other a j →
      k ≤ j ∧ (j = k → starts.idxOf start ≤ starts.idxOf other)

/-- The least distance of a place from a start, zero where no start reaches it. -/
noncomputable def depth (starts : List α) (a : α) : Nat :=
  sInf {k | ∃ start ∈ starts, Path r start k a}

/-- The position of the first start at the least distance from a place. -/
noncomputable def turn (starts : List α) (a : α) : Nat :=
  sInf {i | ∃ start ∈ starts, starts.idxOf start = i ∧ Path r start (depth r starts a) a}

variable {r} {starts : List α} {start a b : α} {k : Nat}

omit [DecidableEq α] in
theorem exists_path (h : ReflTransGen r a b) : ∃ k, Path r a k b := by
  induction h with
  | refl => exact ⟨0, .start⟩
  | tail _ hstep ih =>
    obtain ⟨k, path⟩ := ih
    exact ⟨k + 1, path.step hstep⟩

omit [DecidableEq α] in
theorem Path.reflTransGen (h : Path r a k b) : ReflTransGen r a b := by
  induction h with
  | start => exact .refl
  | step _ hstep ih => exact ih.tail hstep

/-! ### Depth and turn -/

/-- A place that is reached lies at its depth from the start of its turn. -/
theorem exists_start (h : Reached r starts a) :
    ∃ start ∈ starts, starts.idxOf start = turn r starts a ∧ Path r start (depth r starts a) a := by
  obtain ⟨start, hstart, hpath⟩ := h
  obtain ⟨k, path⟩ := exists_path hpath
  have hdepth : depth r starts a ∈ {k | ∃ start ∈ starts, Path r start k a} :=
    Nat.sInf_mem ⟨k, start, hstart, path⟩
  obtain ⟨start, hstart, path⟩ := hdepth
  have hturn : turn r starts a ∈
      {i | ∃ start ∈ starts, starts.idxOf start = i ∧ Path r start (depth r starts a) a} :=
    Nat.sInf_mem ⟨_, start, hstart, rfl, path⟩
  exact hturn

/-- No path is shorter than the depth, and none of that length begins at an earlier start. -/
theorem depth_turn_le (hstart : start ∈ starts) (path : Path r start k a) :
    depth r starts a < k ∨ depth r starts a = k ∧ turn r starts a ≤ starts.idxOf start := by
  have hdepth : depth r starts a ≤ k := Nat.sInf_le ⟨start, hstart, path⟩
  rcases Nat.lt_or_eq_of_le hdepth with hlt | rfl
  · exact .inl hlt
  · exact .inr ⟨rfl, Nat.sInf_le ⟨start, hstart, rfl, path⟩⟩

theorem depth_turn_le_of_step (h : Reached r starts a) (hstep : r a b) :
    depth r starts b < depth r starts a + 1 ∨
      depth r starts b = depth r starts a + 1 ∧ turn r starts b ≤ turn r starts a := by
  obtain ⟨start, hstart, hturn, path⟩ := exists_start h
  rw [← hturn]
  exact depth_turn_le hstart (path.step hstep)

theorem depth_of_mem (hstart : start ∈ starts) : depth r starts start = 0 := by
  have := depth_turn_le (r := r) hstart .start
  omega

theorem turn_of_mem (hstart : start ∈ starts) : turn r starts start = starts.idxOf start := by
  obtain ⟨other, -, hturn, path⟩ := exists_start ⟨start, hstart, .refl⟩
  rw [depth_of_mem hstart] at path
  cases path
  exact hturn.symm

theorem mem_of_depth_eq_zero (h : Reached r starts a) (hdepth : depth r starts a = 0) :
    a ∈ starts := by
  obtain ⟨start, hstart, -, path⟩ := exists_start h
  rw [hdepth] at path
  cases path
  exact hstart

/-- A place below the starts has its turn from a place one step before it. -/
theorem exists_before (h : Reached r starts b) (hdepth : depth r starts b = k + 1) :
    ∃ a, r a b ∧ Reached r starts a ∧ depth r starts a = k ∧ turn r starts a = turn r starts b := by
  obtain ⟨start, hstart, hturn, path⟩ := exists_start h
  rw [hdepth] at path
  cases path with
  | @step _ a _ path hstep =>
    have hreached : Reached r starts a := ⟨start, hstart, path.reflTransGen⟩
    have hlower := depth_turn_le hstart path
    have hupper := depth_turn_le_of_step hreached hstep
    exact ⟨a, hstep, hreached, by omega, by omega⟩

/-! ### The nearest start -/

theorem exists_isNearest (h : Reached r starts a) :
    ∃ start, IsNearest r starts start a ∧ starts.idxOf start = turn r starts a := by
  obtain ⟨start, hstart, hturn, path⟩ := exists_start h
  refine ⟨start, ⟨hstart, _, ⟨path, fun j hj => ?_⟩, fun other hother j hj => ?_⟩, hturn⟩
  · have := depth_turn_le hstart hj
    omega
  · have := depth_turn_le hother hj.1
    omega

theorem IsNearest.reached (h : IsNearest r starts start a) : Reached r starts a := by
  obtain ⟨hstart, k, hk, -⟩ := h
  exact ⟨start, hstart, hk.1.reflTransGen⟩

theorem IsNearest.unique {other : α} (h : IsNearest r starts start a)
    (h' : IsNearest r starts other a) : start = other := by
  obtain ⟨hstart, k, hk, hleast⟩ := h
  obtain ⟨hother, j, hj, hleast'⟩ := h'
  have h₁ := hleast other hother j hj
  have h₂ := hleast' start hstart k hk
  exact (List.idxOf_inj hstart).1 (by omega)

/-! ### Sweeps -/

/-- One place comes no later than the other, and is at most one step ahead of it. -/
def Level (r : α → α → Prop) (starts : List α) (a b : α) : Prop :=
  (depth r starts a < depth r starts b ∨
    depth r starts a = depth r starts b ∧ turn r starts a ≤ turn r starts b) ∧
  (depth r starts b < depth r starts a + 1 ∨
    depth r starts b = depth r starts a + 1 ∧ turn r starts b ≤ turn r starts a)

/-- What is known when the steps from the places `done` have been followed, while other places that
were found are `waiting`. -/
structure Sweep (r : α → α → Prop) (starts done waiting : List α) : Prop where
  nodup : (done ++ waiting).Nodup
  reached : ∀ a ∈ done ++ waiting, Reached r starts a
  started : starts ⊆ done ++ waiting
  closed : ∀ a ∈ done, ∀ b, r a b → b ∈ done ++ waiting
  level : waiting.Pairwise (Level r starts)

variable {done rest found : List α}

theorem sweep_start (hnodup : starts.Nodup) : Sweep r starts [] starts where
  nodup := hnodup
  reached a ha := ⟨a, ha, .refl⟩
  started := List.Subset.refl starts
  closed _ ha := by cases ha
  level := by
    refine List.pairwise_iff_getElem.2 fun i j hi hj hij => ?_
    have hmem (k : Nat) (hk : k < starts.length) : starts[k] ∈ starts := List.getElem_mem hk
    rw [Level, depth_of_mem (hmem i hi), depth_of_mem (hmem j hj), turn_of_mem (hmem i hi),
      turn_of_mem (hmem j hj), hnodup.idxOf_getElem, hnodup.idxOf_getElem]
    omega

namespace Sweep

/-- The places that come before the first waiting one are done. -/
theorem mem_done (h : Sweep r starts done (a :: rest)) (hb : Reached r starts b)
    (hbefore : depth r starts b < depth r starts a ∨
      depth r starts b = depth r starts a ∧ turn r starts b < turn r starts a) : b ∈ done := by
  have found : ∀ b ∈ done ++ a :: rest, depth r starts b < depth r starts a ∨
      depth r starts b = depth r starts a ∧ turn r starts b < turn r starts a → b ∈ done := by
    intro b hb hbefore
    rcases List.mem_append.1 hb with hb | hb
    · exact hb
    · rcases List.mem_cons.1 hb with rfl | hb
      · omega
      · have hlevel := (List.pairwise_cons.1 h.level).1 b hb
        rw [Level] at hlevel
        omega
  induction hdepth : depth r starts b generalizing b with
  | zero => exact found b (h.started (mem_of_depth_eq_zero hb hdepth)) hbefore
  | succ k ih =>
    obtain ⟨c, hstep, hc, hk, hturn⟩ := exists_before hb hdepth
    exact found b (h.closed c (ih hc (by omega) hk) b hstep) hbefore

/-- A place that is new has its depth and turn from the one whose steps are followed. -/
theorem depth_turn_of_new (h : Sweep r starts done (a :: rest)) (hstep : r a b)
    (hnew : b ∉ done ++ a :: rest) :
    depth r starts b = depth r starts a + 1 ∧ turn r starts b = turn r starts a := by
  have ha : Reached r starts a := h.reached a (by simp)
  have hle := depth_turn_le_of_step ha hstep
  have hb := ha.tail hstep
  cases hdepth : depth r starts b with
  | zero => exact absurd (h.started (mem_of_depth_eq_zero hb hdepth)) hnew
  | succ k =>
    obtain ⟨c, hstep', hc, hk, hturn⟩ := exists_before hb hdepth
    have hnotBefore : ¬ (depth r starts c < depth r starts a ∨
        depth r starts c = depth r starts a ∧ turn r starts c < turn r starts a) :=
      fun hbefore => hnew (h.closed c (h.mem_done hc hbefore) b hstep')
    omega

/-- The steps from the first waiting place are followed, and what is new waits last. -/
theorem step (h : Sweep r starts done (a :: rest)) (hnodup : found.Nodup)
    (hfound : ∀ b, b ∈ found ↔ r a b ∧ b ∉ done ++ a :: rest) :
    Sweep r starts (done ++ [a]) (rest ++ found) := by
  have hlist : done ++ [a] ++ (rest ++ found) = (done ++ a :: rest) ++ found := by simp
  have ha : Reached r starts a := h.reached a (by simp)
  refine ⟨?_, ?_, ?_, ?_, ?_⟩
  · rw [hlist, List.nodup_append]
    refine ⟨h.nodup, hnodup, ?_⟩
    rintro b hb c hc rfl
    exact ((hfound b).1 hc).2 hb
  · rw [hlist]
    intro b hb
    rcases List.mem_append.1 hb with hb | hb
    · exact h.reached b hb
    · exact ha.tail ((hfound b).1 hb).1
  · rw [hlist]
    exact List.Subset.trans h.started (List.subset_append_left _ _)
  · rw [hlist]
    intro b hb c hstep
    rcases List.mem_append.1 hb with hb | hb
    · exact List.mem_append_left _ (h.closed b hb c hstep)
    · obtain rfl := List.mem_singleton.1 hb
      rw [List.mem_append, hfound]
      by_cases hc : c ∈ done ++ b :: rest
      · exact .inl hc
      · exact .inr ⟨hstep, hc⟩
  · obtain ⟨hfirst, hrest⟩ := List.pairwise_cons.1 h.level
    have hkey {b : α} (hb : b ∈ found) :=
      h.depth_turn_of_new ((hfound b).1 hb).1 ((hfound b).1 hb).2
    refine List.pairwise_append.2 ⟨hrest, ?_, fun b hb c hc => ?_⟩
    · refine List.pairwise_of_forall_mem_list fun b hb c hc => ?_
      have hkey₁ := hkey hb
      have hkey₂ := hkey hc
      rw [Level]
      omega
    · have hlevel := hfirst b hb
      have hkey := hkey hc
      rw [Level] at hlevel ⊢
      omega

/-- When no place waits any more, the places that are reached are done. -/
theorem mem_done_iff (h : Sweep r starts done []) : a ∈ done ↔ Reached r starts a := by
  rw [← List.append_nil done]
  constructor
  · exact h.reached a
  · rintro ⟨start, hstart, hpath⟩
    induction hpath with
    | refl => exact h.started hstart
    | tail _ hstep ih => exact h.closed _ (by simpa using ih) _ hstep

end Sweep

end NodeFlow
