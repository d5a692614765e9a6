import NodeFlow.Proofs.Graph.Labels

/-!
# Roots of graphs without outputs

The roots of a graph without outputs are the sinks, each once and in order.  A root is labelled
after those before it (`LabelledAfter`): it gets the slug of its node if no root before it has that,
and otherwise the slug with the least number from two on that makes a new label.  The search for
that number always ends (`search_freeLabel`).
-/

namespace NodeFlow

/-! ### The search for a label -/

/-- The search that has come to a label ends with `found`: while a label is in use, the base with
the number `k` is tried next. -/
inductive Search (used : List String) (base : String) : String → Nat → String → Prop
  | free {label : String} {k : Nat} (h : label ∉ used) : Search used base label k label
  | taken {label found : String} {k : Nat} (h : label ∈ used)
      (next : Search used base (base ++ "_" ++ toString k) (k + 1) found) :
      Search used base label k found

variable {used : List String} {base : String} {i k : Nat}

theorem numberedLabel_succ (base : String) (k : Nat) :
    numberedLabel base (k + 1) = base ++ "_" ++ toString (k + 2) := by
  simp [numberedLabel]

theorem search_numberedLabel (hik : i ≤ k) (hfree : numberedLabel base k ∉ used)
    (hused : ∀ j < k, numberedLabel base j ∈ used) :
    Search used base (numberedLabel base i) (i + 2) (numberedLabel base k) := by
  obtain ⟨d, rfl⟩ := Nat.exists_eq_add_of_le hik
  induction d generalizing i with
  | zero => exact .free hfree
  | succ d ih =>
    refine .taken (hused i (by omega)) ?_
    rw [← numberedLabel_succ]
    have hsum : i + (d + 1) = i + 1 + d := by omega
    rw [hsum] at hfree hused ⊢
    exact ih (by omega) hfree hused

theorem search_freeLabel (used : List String) (base : String) :
    Search used base base 2 (freeLabel used base) := by
  obtain ⟨k, hk, hfree, hused⟩ := exists_freeLabel used base
  rw [hk]
  exact search_numberedLabel (Nat.zero_le k) hfree hused

/-- A label is its base unless that is in use, and otherwise the base with the least number from two
on that makes a new one. -/
theorem freeLabel_eq (used : List String) (base : String) :
    if base ∈ used then ∃ k ≥ 2, freeLabel used base = base ++ "_" ++ toString k ∧
      freeLabel used base ∉ used ∧ ∀ j ≥ 2, j < k → base ++ "_" ++ toString j ∈ used
    else freeLabel used base = base := by
  obtain ⟨k, hk, hfree, hused⟩ := exists_freeLabel used base
  rw [hk]
  cases k with
  | zero =>
    rw [if_neg (show base ∉ used from hfree)]
    rfl
  | succ k =>
    rw [if_pos (show base ∈ used from hused 0 (Nat.succ_pos k))]
    refine ⟨k + 2, by omega, numberedLabel_succ base k, hfree, fun j hj hjk => ?_⟩
    obtain ⟨j, rfl⟩ := Nat.exists_eq_add_of_le' hj
    rw [← numberedLabel_succ]
    exact hused (j + 1) (by omega)

theorem freeLabel_ne_empty (h : base ≠ "") : freeLabel used base ≠ "" := by
  obtain ⟨k, hk, -⟩ := exists_freeLabel used base
  rw [hk, numberedLabel]
  split
  · exact h
  · intro hempty
    simpa using congrArg (·.toList.length) hempty

/-! ### Labels one after the other -/

/-- What the label of a node is made from. -/
def Node.labelBase (n : Node) : String := Text.orElse n.slug "result"

theorem Node.labelBase_ne_empty (n : Node) : n.labelBase ≠ "" := by
  rw [labelBase, ne_eq, Text.orElse_eq_empty_iff]
  simp

/-- A root is that of the first node of its name, labelled after the roots before it. -/
def LabelledAfter (nodes : List Node) (before : List Root) (root : Root) : Prop :=
  ∃ n, nodes.find? (·.id == root.node) = some n ∧
    root.label = freeLabel (before.map (·.label)) n.labelBase

/-- Each root is labelled after those before it. -/
def AllLabelled (nodes : List Node) (roots : List Root) : Prop :=
  ∀ before root after, roots = before ++ root :: after → LabelledAfter nodes before root

variable {nodes : List Node} {roots : List Root} {root : Root} {g : Graph}

theorem allLabelled_nil : AllLabelled nodes [] := by
  intro before root after heq
  simp at heq

theorem AllLabelled.concat (h : AllLabelled nodes roots) (hroot : LabelledAfter nodes roots root) :
    AllLabelled nodes (roots ++ [root]) := by
  intro before other after heq
  rcases List.eq_nil_or_concat' after with rfl | ⟨after, last, rfl⟩
  · obtain ⟨rfl, hlast⟩ := List.append_inj' heq rfl
    obtain rfl := List.singleton_inj.1 hlast
    exact hroot
  · rw [← List.cons_append, ← List.append_assoc] at heq
    obtain ⟨rfl, -⟩ := List.append_inj' heq rfl
    exact h before other after rfl

namespace Graph

theorem allLabelled_labelSinks {done rest : List Node}
    (hdone : ∀ n ∈ done, n.id ∈ roots.map (·.node)) (h : AllLabelled (done ++ rest) roots) :
    AllLabelled (done ++ rest) (labelSinks roots rest) := by
  induction rest generalizing done roots with
  | nil => exact h
  | cons n rest ih =>
    rw [labelSinks]
    -- the node at hand is done in either case, so the rest is labelled with one more node done
    have hsplit : done ++ n :: rest = done ++ [n] ++ rest := by simp
    rw [hsplit] at h ⊢
    split
    · next hused =>
      refine ih ?_ h
      rw [List.forall_mem_append, List.forall_mem_singleton]
      exact ⟨hdone, by simpa using hused⟩
    · next hnew =>
      dsimp only
      refine ih ?_ (h.concat ?_)
      · rw [List.forall_mem_append, List.forall_mem_singleton]
        refine ⟨fun m hm => ?_, by simp⟩
        rw [List.map_append]
        exact List.mem_append_left _ (hdone m hm)
      · refine ⟨n, ?_, rfl⟩
        have hfirst : ∀ m ∈ done, (m.id == n.id) = false := by
          intro m hm
          rw [beq_eq_false_iff_ne]
          intro heq
          have hmem := hdone m hm
          rw [heq] at hmem
          exact hnew (by simpa using hmem)
        rw [List.append_assoc, List.find?_append, List.find?_eq_none.2 (by simpa using hfirst)]
        simp

theorem map_node_labelSinks (roots : List Root) (nodes : List Node) :
    (labelSinks roots nodes).map (·.node) = roots.map (·.node) ++
      ((nodes.map (·.id)).filter fun id => decide (id ∉ roots.map (·.node))).eraseDups := by
  induction nodes generalizing roots with
  | nil => simp [labelSinks]
  | cons n rest ih =>
    rw [labelSinks]
    split
    · next hused =>
      have hmem : n.id ∈ roots.map (·.node) := by simpa using hused
      rw [ih, List.map_cons, List.filter_cons_of_neg (by simpa using hmem)]
    · next hnew =>
      have hmem : n.id ∉ roots.map (·.node) := by simpa using hnew
      rw [ih, List.map_cons, List.filter_cons_of_pos (by simpa using hmem), List.eraseDups_cons,
        List.filter_filter, List.map_append, List.map_singleton, List.append_assoc,
        List.singleton_append]
      congr 3
      apply List.filter_congr
      intro id _
      simp [beq_eq_decide, or_comm, -Bool.decide_or]

theorem isSink_eq (id : String) :
    g.isSink id = (decide (∀ e ∈ g.edges, e.source ≠ id) && !g.isLoop id) := by
  rw [isSink, edgesFrom]
  congr 1
  rw [Bool.eq_iff_iff]
  simp

theorem outputRoots_eq_nil (h : ∀ n ∈ g.nodes, n.kind ≠ .output) : g.outputRoots = [] := by
  rw [← List.map_eq_nil_iff (f := (·.node)), map_node_outputRoots]
  simpa using h

/-- The first node of a sink's name is the first among the sinks. -/
theorem find?_sinks {id : String} (h : g.isSink id = true) :
    (g.nodes.filter fun n => g.isSink n.id).find? (·.id == id) = g.nodes.find? (·.id == id) := by
  rw [List.find?_filter]
  congr 1
  funext n
  rw [Bool.eq_iff_iff]
  simp only [decide_eq_true_eq, beq_iff_eq]
  constructor
  · exact And.right
  · rintro rfl
    exact ⟨h, rfl⟩

/-- **The roots of a graph without outputs are its sinks, with labels of their own.**  In the order
in which nodes are listed, and each once, they are the names of those that are no loops and that no
edge at all leaves.  No label is empty, and none is given twice.  Each is made from the slug of its
node, or from `result`: it is this itself if no root before has it as its label, and otherwise this
with the least number from two on that makes a label no root before has.  The search for it ends. -/
theorem roots_without_outputs {g : Graph} (h : ∀ n ∈ g.nodes, n.kind ≠ .output) :
    g.roots.map (·.node) = (g.ids.filter fun id =>
      decide (∀ e ∈ g.edges, e.source ≠ id) && !g.isLoop id).eraseDups ∧
    (∀ root ∈ g.roots, root.label ≠ "") ∧ (g.roots.map (·.label)).Nodup ∧
    ∀ before root after, g.roots = before ++ root :: after →
      ∃ n, g.nodes.find? (·.id == root.node) = some n ∧
        let base := Text.orElse n.slug "result"
        let used := before.map (·.label)
        Search used base base 2 root.label ∧
        if base ∈ used then ∃ k ≥ 2, root.label = base ++ "_" ++ toString k ∧
          root.label ∉ used ∧ ∀ j ≥ 2, j < k → base ++ "_" ++ toString j ∈ used
        else root.label = base := by
  have hroots : g.roots = labelSinks [] (g.nodes.filter fun n => g.isSink n.id) := by
    rw [roots, outputRoots_eq_nil h]
    rfl
  have hnodes : g.roots.map (·.node) = (g.ids.filter g.isSink).eraseDups := by
    rw [hroots, map_node_labelSinks]
    simp [ids, List.filter_map, Function.comp_def]
  have hlabelled : AllLabelled (g.nodes.filter fun n => g.isSink n.id) g.roots := by
    rw [hroots]
    exact allLabelled_labelSinks (List.forall_mem_nil _) allLabelled_nil
  refine ⟨?_, ?_, ?_, ?_⟩
  · rw [hnodes]
    congr 2
    funext id
    exact isSink_eq id
  · intro root hroot
    obtain ⟨before, after, hsplit⟩ := List.append_of_mem hroot
    obtain ⟨n, -, hlabel⟩ := hlabelled before root after hsplit
    rw [hlabel]
    exact freeLabel_ne_empty n.labelBase_ne_empty
  · have hnone : (([] : List Root).map (·.label)).Nodup := List.nodup_nil
    rw [hroots]
    exact labels_nodup_labelSinks hnone _
  · intro before root after hsplit
    obtain ⟨n, hn, hlabel⟩ := hlabelled before root after hsplit
    have hsink : g.isSink root.node = true := by
      have hmem : root.node ∈ g.roots.map (·.node) := by simp [hsplit]
      rw [hnodes, List.mem_eraseDups] at hmem
      exact (List.mem_filter.1 hmem).2
    rw [find?_sinks hsink] at hn
    rw [hlabel]
    exact ⟨n, hn, search_freeLabel _ _, freeLabel_eq _ _⟩

/-- Two totals and the second of something else of that name, one of the totals listed twice, beside
a loop and a field from which an edge leads nowhere. -/
def totals : Graph where
  nodes := [
    ⟨"net", none, .field "net" .number (some "Total")⟩,
    ⟨"gross", none, .field "gross" .number (some "Total")⟩,
    ⟨"loop", none, .operator "while_loop" none []⟩,
    ⟨"other", none, .const (.int 2) .number (some "Total 2")⟩,
    ⟨"net", none, .field "net" .number none⟩,
    ⟨"lost", none, .field "lost" .any none⟩]
  edges := [⟨none, "lost", none, "nowhere", none⟩]
  metadata := []

theorem roots_without_outputs_totals :
    (∀ n ∈ totals.nodes, n.kind ≠ .output) ∧
    totals.roots.map (·.node) = ["net", "gross", "other"] ∧
    (totals.roots.map (·.label)).Nodup ∧
    totals.roots.map (·.label) = ["total", "total_2", "total_2_2"] := by
  have h : ∀ n ∈ totals.nodes, n.kind ≠ .output := by decide
  obtain ⟨hnodes, -, hlabels, -⟩ := roots_without_outputs h
  exact ⟨h, hnodes.trans (by decide +kernel), hlabels, by decide +kernel⟩

end Graph

end NodeFlow
