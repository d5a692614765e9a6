import NodeFlow.Proofs.Graph.Dependency

/-!
# The unfolding of a node

Following its dependencies, a node unfolds into a tree in which nothing is shared any more: an input
without an edge, or with one from a name that is no node's, is an empty leaf, and every other input
is labelled with the source handle of its edge.  `g.Unfolds id t` says that `t` is this tree.  A
node has at most one (`Unfolds.unique`), and it has one exactly if it is not circular
(`unfolding?_eq_none_iff`); `g.unfolding? id` computes it.
-/

namespace NodeFlow

/-- What a node is made of, down to fields and constants. -/
inductive Unfolding where
  /-- Nothing is there. -/
  | empty
  /-- A field of the input record. -/
  | path (path : String)
  | constant (value : Value) (dtype : Dtype)
  /-- An operator, with what comes in at each port from which handle. -/
  | operation (op : Operator) (inputs : List (String × Option String × Unfolding))
  /-- An output, with what comes in from which handle. -/
  | output (handle : Option String) (source : Unfolding)
  /-- An operator that is not in the catalog. -/
  | unknown

namespace Unfolding

/-- What comes in by an edge, with the handle that it comes from. -/
def ofEdge (children : String → Unfolding) : Option Edge → Option String × Unfolding
  | none => (none, empty)
  | some e => (e.sourceHandle, children e.source)

/-- The unfolding of a node from the unfoldings of the nodes that it depends on. -/
def ofOrigin (children : String → Unfolding) : Origin → Unfolding
  | .path p => path p
  | .constant value dtype => constant value dtype
  | .operation op inputs => operation op (inputs.map fun (port, e) => (port, ofEdge children e))
  | .edge e => output (ofEdge children e).1 (ofEdge children e).2
  | .unknown => unknown

theorem ofOrigin_congr {children children' : String → Unfolding} {origin : Origin}
    (h : ∀ e ∈ origin.edges, children e.source = children' e.source) :
    ofOrigin children origin = ofOrigin children' origin := by
  have ofEdge_congr {e : Option Edge} (he : ∀ e' ∈ e, e' ∈ origin.edges) :
      ofEdge children e = ofEdge children' e := by
    cases e with
    | none => rfl
    | some e => rw [ofEdge, ofEdge, h e (he e rfl)]
  cases origin with
  | path | constant | unknown => rfl
  | operation op inputs =>
    rw [ofOrigin, ofOrigin]
    congr 1
    refine List.map_congr_left ?_
    rintro ⟨port, e⟩ hinput
    dsimp only
    rw [ofEdge_congr fun e' he => List.mem_filterMap.2 ⟨(port, e), hinput, he⟩]
  | edge e =>
    rw [ofOrigin, ofOrigin, ofEdge_congr fun e' he => Option.mem_toList.2 he]

end Unfolding

namespace Graph

variable (g : Graph)

/-- `g.Unfolds id t`: the node `id` unfolds into `t`. -/
inductive Unfolds : String → Unfolding → Prop
  | absent {id : String} (h : g.node? id = none) : Unfolds id .empty
  | node {id : String} {n : Node} (h : g.node? id = some n) (children : String → Unfolding)
      (unfolds : ∀ e ∈ (g.origin n).edges, Unfolds e.source (children e.source)) :
      Unfolds id (.ofOrigin children (g.origin n))

/-- The unfolding of a node, if it takes no more than so many steps down. -/
def unfoldWithin : Nat → String → Option Unfolding
  | 0, _ => none
  | depth + 1, id =>
    match g.node? id with
    | none => some .empty
    | some n =>
      if (g.origin n).edges.all fun e => (unfoldWithin depth e.source).isSome then
        some (.ofOrigin (fun m => (unfoldWithin depth m).getD .empty) (g.origin n))
      else none

/-- The unfolding of a node. -/
def unfolding? (id : String) : Option Unfolding := g.unfoldWithin (g.nodes.length + 1) id

variable {g} {id : String} {t t' : Unfolding} {n : Node}

/-- A node has only one unfolding. -/
theorem Unfolds.unique (h : g.Unfolds id t) (h' : g.Unfolds id t') : t = t' := by
  induction h generalizing t' with
  | absent hn =>
    cases h' with
    | absent => rfl
    | node hn' =>
      rw [hn] at hn'
      cases hn'
  | node hn children _ ih =>
    cases h' with
    | absent hn' =>
      rw [hn] at hn'
      cases hn'
    | node hn' children' unfolds' =>
      rw [hn] at hn'
      obtain rfl := Option.some.inj hn'
      exact Unfolding.ofOrigin_congr fun e he => ih e he (unfolds' e he)

/-- A circular node has none: an unfolding is finite. -/
theorem Unfolds.not_circular (h : g.Unfolds id t) : ¬ g.Circular id := by
  induction h with
  | absent hn => exact not_circular_of_node?_eq_none hn
  | node hn children _ ih =>
    intro circular
    obtain ⟨other, hd, ho⟩ := circular_iff.1 circular
    obtain ⟨e, he, rfl⟩ := (depends_iff hn).1 hd
    exact ih e he ho

theorem unfolds_of_unfoldWithin {depth : Nat} (h : g.unfoldWithin depth id = some t) :
    g.Unfolds id t := by
  induction depth generalizing id t with
  | zero => cases h
  | succ depth ih =>
    rw [unfoldWithin] at h
    split at h
    · next hn =>
      obtain rfl := Option.some.inj h
      exact .absent hn
    · next n hn =>
      split at h
      · next hall =>
        obtain rfl := Option.some.inj h
        refine .node hn _ fun e he => ?_
        obtain ⟨child, hchild⟩ := Option.isSome_iff_exists.1 (List.all_eq_true.1 hall e he)
        rw [hchild]
        exact ih hchild
      · cases h

/-- The steps down from a node that is not circular do not run out. -/
theorem exists_unfoldWithin {way : List String} {depth : Nat}
    (trail : Trail g.Depends g.ids way id depth) (h : ¬ g.Circular id) :
    ∃ t, g.unfoldWithin depth id = some t := by
  induction depth generalizing way id with
  | zero => exact absurd trail.pos (Nat.lt_irrefl 0)
  | succ depth ih =>
    rw [unfoldWithin]
    cases hn : g.node? id with
    | none => exact ⟨_, rfl⟩
    | some n =>
      have hchildren : ∀ e ∈ (g.origin n).edges, (g.unfoldWithin depth e.source).isSome := by
        intro e he
        have hd := depends_source hn he
        have fresh := notMem_of_not_circular trail h
        obtain ⟨child, hchild⟩ :=
          ih (trail.step (mem_ids_of_node? hn) fresh hd) (not_circular_of_depends h hd)
        rw [hchild]
        rfl
      exact ⟨_, if_pos (List.all_eq_true.2 hchildren)⟩

theorem exists_unfolding (h : ¬ g.Circular id) : ∃ t, g.unfolding? id = some t :=
  exists_unfoldWithin (trail_start (Nat.lt_succ_self _) id) h

theorem unfolding?_eq_some_iff : g.unfolding? id = some t ↔ g.Unfolds id t := by
  constructor
  · exact unfolds_of_unfoldWithin
  · intro h
    obtain ⟨t', ht'⟩ := exists_unfolding h.not_circular
    rw [ht', h.unique (unfolds_of_unfoldWithin ht')]

theorem unfolding?_eq_none_iff : g.unfolding? id = none ↔ g.Circular id := by
  constructor
  · intro h
    by_contra hc
    obtain ⟨t, ht⟩ := exists_unfolding hc
    rw [h] at ht
    cases ht
  · intro h
    by_contra hc
    obtain ⟨t, ht⟩ := Option.ne_none_iff_exists'.1 hc
    exact (unfolding?_eq_some_iff.1 ht).not_circular h

theorem exists_unfolds (h : ¬ g.Circular id) : ∃ t, g.Unfolds id t := by
  obtain ⟨t, ht⟩ := exists_unfolding h
  exact ⟨t, unfolding?_eq_some_iff.1 ht⟩

instance : DecidablePred g.Circular := fun _ => decidable_of_iff _ unfolding?_eq_none_iff

instance : Decidable g.Acyclic := inferInstanceAs (Decidable (∀ id ∈ g.ids, ¬ g.Circular id))

end Graph

end NodeFlow
