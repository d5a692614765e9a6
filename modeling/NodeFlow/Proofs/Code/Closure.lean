import NodeFlow.Code.Closure
import NodeFlow.Proofs.Graph.Loops

/-!
# What the search for a block finds

The search backwards from some nodes comes to an end within as many steps as there are seeds and
edges, and finds, each once, the nodes of the loop from which a seed is reached without leaving it
(`governedClosure_exact`).  In every step an owned node that is *due*, as a seed or as the source of
a data edge into a node found before, is found or waits (`IsSearch`); and a node that is found uses
up the edges into it, so that what is left to do becomes less (`left_step_lt`).
-/

open Relation

namespace NodeFlow

/-- Data runs from one node to another along a data edge inside of a loop. -/
def Graph.FlowsInside (g : Graph) (loop id other : String) : Prop :=
  g.loopOf? id = some loop ∧ g.loopOf? other = some loop ∧ g.Carries id other

theorem Graph.mem_ids_of_loopOf? {g : Graph} {id loop : String} (h : g.loopOf? id = some loop) :
    id ∈ g.ids :=
  mem_ids_of_reached (isSome_loopOf?_iff.1 (Option.isSome_iff_exists.2 ⟨loop, h⟩))

theorem Graph.mem_dataIn_iff {g : Graph} {id : String} {e : Edge} :
    e ∈ g.dataIn id ↔ e ∈ g.edges ∧ e.target = id ∧ g.isScopeEdge e = false := by
  simp [dataIn]

namespace Code

namespace Search

variable {g : Graph} {owned : String → Bool} {seeds found waiting : List String} {id other : String}
  {s : Search} {steps : Nat}

/-! ### Single steps -/

theorem step_pass (h : id ∈ found ∨ owned id = false) :
    step g owned ⟨found, id :: waiting⟩ = ⟨found, waiting⟩ := by
  have hpass : (found.contains id || !owned id) = true := by simpa using h
  rw [step, if_pos hpass]

theorem step_find (hnew : id ∉ found) (howned : owned id = true) :
    step g owned ⟨found, id :: waiting⟩ =
      ⟨found ++ [id], ((g.dataIn id).map (·.source)).reverse ++ waiting⟩ := by
  have hfind : ¬ (found.contains id || !owned id) = true := by simp [hnew, howned]
  rw [step, if_neg hfind]

/-! ### What is due -/

/-- Data runs from one owned node to another. -/
def Sends (g : Graph) (owned : String → Bool) (id other : String) : Prop :=
  owned id = true ∧ owned other = true ∧ ∃ e ∈ g.dataIn other, e.source = id

/-- A node has to be looked at: it is a seed, or a data edge leads from it to a node found. -/
def Due (g : Graph) (seeds found : List String) (id : String) : Prop :=
  id ∈ seeds ∨ ∃ other ∈ found, ∃ e ∈ g.dataIn other, e.source = id

theorem due_concat : Due g seeds (found ++ [id]) other ↔
    Due g seeds found other ∨ ∃ e ∈ g.dataIn id, e.source = other := by
  unfold Due
  simp only [List.mem_append, List.mem_singleton, or_and_right, exists_or, exists_eq_left]
  rw [or_assoc]

/-- Some steps of a search from the seeds have been made. -/
structure IsSearch (g : Graph) (owned : String → Bool) (seeds : List String) (s : Search) :
    Prop where
  nodup : s.found.Nodup
  reaches : ∀ id ∈ s.found,
    ∃ seed ∈ seeds, owned seed = true ∧ ReflTransGen (Sends g owned) id seed
  due : ∀ id ∈ s.waiting, Due g seeds s.found id
  looked : ∀ id, Due g seeds s.found id → owned id = true → id ∈ s.found ∨ id ∈ s.waiting

theorem isSearch_start (g : Graph) (owned : String → Bool) (seeds : List String) :
    IsSearch g owned seeds (.start seeds) where
  nodup := List.nodup_nil
  reaches := nofun
  due _ h := .inl (List.mem_reverse.1 h)
  looked id h _ := by
    rcases h with h | ⟨_, h, _⟩
    · exact .inr (List.mem_reverse.2 h)
    · cases h

theorem IsSearch.owned_of_mem (h : IsSearch g owned seeds s) (hid : id ∈ s.found) :
    owned id = true := by
  obtain ⟨seed, -, howned, hpath⟩ := h.reaches id hid
  rcases ReflTransGen.cases_head hpath with rfl | ⟨other, hsends, -⟩
  · exact howned
  · exact hsends.1

/-- A node that is due and owned reaches a seed. -/
theorem IsSearch.reaches_of_due (h : IsSearch g owned seeds s) (hdue : Due g seeds s.found id)
    (howned : owned id = true) :
    ∃ seed ∈ seeds, owned seed = true ∧ ReflTransGen (Sends g owned) id seed := by
  rcases hdue with hseed | ⟨other, hother, hedge⟩
  · exact ⟨id, hseed, howned, .refl⟩
  · obtain ⟨seed, hseed, howned', hpath⟩ := h.reaches other hother
    exact ⟨seed, hseed, howned', .head ⟨howned, h.owned_of_mem hother, hedge⟩ hpath⟩

theorem IsSearch.pass (h : IsSearch g owned seeds ⟨found, id :: waiting⟩)
    (hpass : id ∈ found ∨ owned id = false) : IsSearch g owned seeds ⟨found, waiting⟩ where
  nodup := h.nodup
  reaches := h.reaches
  due other hother := h.due other (List.mem_cons_of_mem id hother)
  looked other hdue howned := by
    rcases h.looked other hdue howned with hfound | hwaiting
    · exact .inl hfound
    rcases List.mem_cons.1 hwaiting with rfl | hwaiting
    · exact .inl (hpass.resolve_right (by simp [howned]))
    · exact .inr hwaiting

theorem IsSearch.find (h : IsSearch g owned seeds ⟨found, id :: waiting⟩) (hnew : id ∉ found)
    (howned : owned id = true) :
    IsSearch g owned seeds
      ⟨found ++ [id], ((g.dataIn id).map (·.source)).reverse ++ waiting⟩ where
  nodup := List.nodup_append.2 ⟨h.nodup, List.nodup_singleton id, by
    rintro other hother _ hid rfl
    exact hnew (List.mem_singleton.1 hid ▸ hother)⟩
  reaches other hother := by
    rcases List.mem_append.1 hother with hother | hother
    · exact h.reaches other hother
    · obtain rfl := List.mem_singleton.1 hother
      exact h.reaches_of_due (h.due other List.mem_cons_self) howned
  due other hother := by
    rw [due_concat]
    rcases List.mem_append.1 hother with hother | hother
    · exact .inr (by simpa using hother)
    · exact .inl (h.due other (List.mem_cons_of_mem id hother))
  looked other hdue howned' := by
    simp only [List.mem_append, List.mem_singleton, List.mem_reverse, List.mem_map]
    rcases due_concat.1 hdue with hdue | hedge
    · rcases h.looked other hdue howned' with hfound | hwaiting
      · exact .inl (.inl hfound)
      · exact (List.mem_cons.1 hwaiting).imp .inr .inr
    · exact .inr (.inl hedge)

theorem IsSearch.step (h : IsSearch g owned seeds s) : IsSearch g owned seeds (s.step g owned) := by
  obtain ⟨found, waiting⟩ := s
  cases waiting with
  | nil => exact h
  | cons id waiting =>
    by_cases hpass : id ∈ found ∨ owned id = false
    · rw [step_pass hpass]
      exact h.pass hpass
    · rw [not_or, Bool.not_eq_false] at hpass
      rw [step_find hpass.1 hpass.2]
      exact h.find hpass.1 hpass.2

theorem IsSearch.run (h : IsSearch g owned seeds s) (steps : Nat) :
    IsSearch g owned seeds (run g owned steps s) := by
  induction steps generalizing s with
  | zero => exact h
  | succ steps ih => exact ih h.step

/-- Where nothing waits any more, what was found is closed: a node that sends data to one of its
nodes is one of them. -/
theorem IsSearch.mem_found_iff (h : IsSearch g owned seeds s) (hend : s.waiting = []) :
    id ∈ s.found ↔ ∃ seed ∈ seeds, owned seed = true ∧ ReflTransGen (Sends g owned) id seed := by
  refine ⟨h.reaches id, ?_⟩
  have hfound : ∀ other, Due g seeds s.found other → owned other = true → other ∈ s.found := by
    intro other hdue howned
    have := h.looked other hdue howned
    rw [hend] at this
    simpa using this
  rintro ⟨seed, hseed, howned, hpath⟩
  induction hpath using ReflTransGen.head_induction_on with
  | refl => exact hfound seed (.inl hseed) howned
  | head hsends _ ih => exact hfound _ (.inr ⟨_, ih, hsends.2.2⟩) hsends.1

/-! ### The end of a search -/

/-- What is left to do: the nodes to look at, and the edges into nodes that were not found yet. -/
def left (g : Graph) (s : Search) : Nat :=
  s.waiting.length + g.edges.countP (!s.found.contains ·.target)

theorem left_start (g : Graph) (seeds : List String) :
    left g (.start seeds) = seeds.length + g.edges.length := by
  rw [left, start, List.length_reverse]
  simp

/-- A node that is found uses up the edges that lead to it. -/
theorem countP_found_le (hnew : id ∉ found) :
    (g.dataIn id).length + g.edges.countP (!(found ++ [id]).contains ·.target) ≤
      g.edges.countP (!found.contains ·.target) := by
  rw [Graph.dataIn]
  induction g.edges with
  | nil => exact Nat.le_refl 0
  | cons e rest ih =>
    rw [List.filter_cons, List.countP_cons, List.countP_cons]
    by_cases htarget : e.target = id
    · have hcount : (!found.contains e.target) = true := by simpa [htarget] using hnew
      have hcount' : (!(found ++ [id]).contains e.target) = false := by simp [htarget]
      rw [if_pos hcount, hcount']
      simp only [Bool.false_eq_true, if_false]
      split
      · rw [List.length_cons]
        omega
      · omega
    · have hcount : (found ++ [id]).contains e.target = found.contains e.target := by
        simp [htarget]
      rw [hcount]
      simp only [beq_eq_false_iff_ne.2 htarget, Bool.false_and, Bool.false_eq_true, if_false]
      omega

/-- Every step leaves less to do. -/
theorem left_step_lt (g : Graph) (owned : String → Bool) (hwaiting : s.waiting ≠ []) :
    left g (s.step g owned) < left g s := by
  obtain ⟨found, waiting⟩ := s
  cases waiting with
  | nil => exact absurd rfl hwaiting
  | cons id waiting =>
    by_cases hpass : id ∈ found ∨ owned id = false
    · rw [step_pass hpass]
      simp only [left, List.length_cons]
      omega
    · rw [not_or, Bool.not_eq_false] at hpass
      have hle := countP_found_le (g := g) hpass.1
      rw [step_find hpass.1 hpass.2]
      simp only [left, List.length_cons, List.length_append, List.length_reverse, List.length_map]
      omega

theorem run_eq_self (hend : s.waiting = []) (steps : Nat) : run g owned steps s = s := by
  obtain ⟨found, waiting⟩ := s
  obtain rfl : waiting = [] := hend
  induction steps with
  | zero => rfl
  | succ steps ih => exact ih

theorem run_add (steps more : Nat) (s : Search) :
    run g owned (steps + more) s = run g owned more (run g owned steps s) := by
  induction steps generalizing s with
  | zero => rw [Nat.zero_add, run]
  | succ steps ih => rw [Nat.succ_add, run, run, ih]

theorem waiting_run (h : left g s ≤ steps) : (run g owned steps s).waiting = [] := by
  induction steps generalizing s with
  | zero =>
    have hlength : s.waiting.length = 0 := by
      unfold left at h
      omega
    exact List.length_eq_zero_iff.1 hlength
  | succ steps ih =>
    by_cases hend : s.waiting = []
    · rw [run_eq_self hend]
      exact hend
    · have := left_step_lt g owned hend
      exact ih (by omega)

/-- A search has come to its end after as many steps as there are seeds and edges. -/
theorem run_of_le (owned : String → Bool) (h : seeds.length + g.edges.length ≤ steps) :
    run g owned steps (.start seeds) =
      ⟨(run g owned (seeds.length + g.edges.length) (.start seeds)).found, []⟩ := by
  have hend : (run g owned (seeds.length + g.edges.length) (.start seeds)).waiting = [] :=
    waiting_run (Nat.le_of_eq (left_start g seeds))
  obtain ⟨more, rfl⟩ := Nat.exists_eq_add_of_le h
  rw [run_add, run_eq_self hend, ← hend]

end Search

/-! ### The nodes found -/

variable {g : Graph} {loop id other : String} {seeds : List String}

theorem sends_iff : Search.Sends g (fun id => g.governed.lookup id == some loop) id other ↔
    g.FlowsInside loop id other := by
  simp only [Search.Sends, Graph.FlowsInside, Graph.Carries, Graph.loopOf?, beq_iff_eq,
    Graph.mem_dataIn_iff]
  refine and_congr_right fun hid => and_congr_right fun hother => ?_
  constructor
  · rintro ⟨e, ⟨he, htarget, hscope⟩, hsource⟩
    exact ⟨Graph.mem_ids_of_loopOf? hid, Graph.mem_ids_of_loopOf? hother, e, he, hscope, hsource,
      htarget⟩
  · rintro ⟨-, -, e, he, hscope, hsource, htarget⟩
    exact ⟨e, ⟨he, htarget, hscope⟩, hsource⟩

theorem isSearch_governedClosure (g : Graph) (loop : String) (seeds : List String) :
    Search.IsSearch g (fun id => g.governed.lookup id == some loop) seeds
      ⟨governedClosure g g.governed loop seeds, []⟩ := by
  have h := (Search.isSearch_start g (fun id => g.governed.lookup id == some loop) seeds).run
    (seeds.length + g.edges.length)
  rwa [Search.run_of_le _ (Nat.le_refl _)] at h

theorem loopOf?_of_mem_governedClosure (h : id ∈ governedClosure g g.governed loop seeds) :
    g.loopOf? id = some loop := by
  simpa [Graph.loopOf?] using (isSearch_governedClosure g loop seeds).owned_of_mem h

/-- **The search for a block is backward reachability inside its loop.**  Whatever cycles the data
runs in, the search is at its end after as many steps as there are seeds and edges.  It has found,
without repetition, exactly the nodes from which data flows to a seed that the loop governs through
nodes that the loop governs, these seeds included. -/
theorem governedClosure_exact (g : Graph) (loop : String) (seeds : List String) :
    (∀ steps, seeds.length + g.edges.length ≤ steps →
      Search.run g (fun id => g.loopOf? id == some loop) steps (.start seeds) =
        ⟨governedClosure g g.governed loop seeds, []⟩) ∧
    (governedClosure g g.governed loop seeds).Nodup ∧
    ∀ id, id ∈ governedClosure g g.governed loop seeds ↔
      ∃ seed ∈ seeds, g.loopOf? seed = some loop ∧
        Relation.ReflTransGen (g.FlowsInside loop) id seed := by
  have h := isSearch_governedClosure g loop seeds
  refine ⟨fun steps hsteps => Search.run_of_le _ hsteps, h.nodup, fun id => ?_⟩
  have hsends : Search.Sends g (fun id => g.governed.lookup id == some loop) =
      g.FlowsInside loop := funext₂ fun _ _ => propext sends_iff
  rw [h.mem_found_iff rfl, hsends]
  simp only [Graph.loopOf?, beq_iff_eq]

end Code

end NodeFlow
