import NodeFlow.Proofs.Code.Rendering

/-!
# Rendering without a cut

`Uncut g bound way keys memo texts memo'` says that the expressions for some outputs over bound
names, asked for one after the other while those of the nodes of `way` are being written, are
`texts`, that the memo grows from `memo` to `memo'` meanwhile, and that no node was met again on the
way to itself.  It follows the branches of `renderFrom` but the one that writes the mark of a cycle.
`Unfinished g bound way keys memo memo'` says that a constant that cannot be written was come upon
in such a run.  In a graph without cycles every rendering is one of the two (`uncut_render`,
`uncut_assignment`).
-/

open Relation NodeFlow.Outcome

namespace NodeFlow.Code

/-- The outputs `keys` are written as `texts`, with no node among those of `way` when its parts are
asked for. -/
inductive Uncut (g : Graph) (bound : Bound) :
    List String → List (Option Key) → Memo → List String → Memo → Prop
  | done {way : List String} {memo : Memo} : Uncut g bound way [] memo [] memo
  | unwired {way keys memo texts memo'} (rest : Uncut g bound way keys memo texts memo') :
      Uncut g bound way (none :: keys) memo (nothing :: texts) memo'
  | named {way id handle name keys memo texts memo'} (hb : bound.lookup id = some name)
      (rest : Uncut g bound way keys memo texts memo') :
      Uncut g bound way (some (id, handle) :: keys) memo (name :: texts) memo'
  | absent {way id handle keys memo texts memo'} (hb : bound.lookup id = none)
      (hn : g.node? id = none) (rest : Uncut g bound way keys memo texts memo') :
      Uncut g bound way (some (id, handle) :: keys) memo (nothing :: texts) memo'
  | known {way id handle n text keys memo texts memo'} (hb : bound.lookup id = none)
      (hn : g.node? id = some n) (hmemo : memo.lookup (id, handle) = some text)
      (rest : Uncut g bound way keys memo texts memo') :
      Uncut g bound way (some (id, handle) :: keys) memo (text :: texts) memo'
  | fresh {way id handle n text parts keys memo memo' texts memo''} (hb : bound.lookup id = none)
      (hn : g.node? id = some n) (hmemo : memo.lookup (id, handle) = none) (hway : id ∉ way)
      (inner : Uncut g bound (id :: way) ((g.origin n).wires.map wanted) memo parts memo')
      (htext : written handle (g.origin n) parts = .ok text)
      (rest : Uncut g bound way keys (((id, handle), text) :: memo') texts memo'') :
      Uncut g bound way (some (id, handle) :: keys) memo (text :: texts) memo''

/-- The outputs `keys` are not all written, as a constant cannot be, with no node among those of
`way` when its parts are asked for. -/
inductive Unfinished (g : Graph) (bound : Bound) :
    List String → List (Option Key) → Memo → Memo → Prop
  | later {way first keys memo text memo' memo''}
      (hfirst : Uncut g bound way [first] memo [text] memo')
      (rest : Unfinished g bound way keys memo' memo'') :
      Unfinished g bound way (first :: keys) memo memo''
  | inside {way id handle n keys memo memo'} (hb : bound.lookup id = none)
      (hn : g.node? id = some n) (hmemo : memo.lookup (id, handle) = none) (hway : id ∉ way)
      (inner : Unfinished g bound (id :: way) ((g.origin n).wires.map wanted) memo memo') :
      Unfinished g bound way (some (id, handle) :: keys) memo memo'
  | here {way id handle n parts keys memo memo'} (hb : bound.lookup id = none)
      (hn : g.node? id = some n) (hmemo : memo.lookup (id, handle) = none) (hway : id ∉ way)
      (inner : Uncut g bound (id :: way) ((g.origin n).wires.map wanted) memo parts memo')
      (hwritten : written handle (g.origin n) parts = .error ⟨⟩) :
      Unfinished g bound way (some (id, handle) :: keys) memo memo'

variable {g : Graph} {bound : Bound} {way : List String} {keys keys' : List (Option Key)}
  {texts texts' : List String} {memo memo' memo'' : Memo} {id : String} {n : Node}

theorem Uncut.append (h : Uncut g bound way keys memo texts memo')
    (h' : Uncut g bound way keys' memo' texts' memo'') :
    Uncut g bound way (keys ++ keys') memo (texts ++ texts') memo'' := by
  induction h with
  | done => exact h'
  | unwired _ ih => exact .unwired (ih h')
  | named hb _ ih => exact .named hb (ih h')
  | absent hb hn _ ih => exact .absent hb hn (ih h')
  | known hb hn hmemo _ ih => exact .known hb hn hmemo (ih h')
  | fresh hb hn hmemo hway inner htext _ _ ih =>
    exact .fresh hb hn hmemo hway inner htext (ih h')

theorem Unfinished.append (h : Unfinished g bound way keys memo memo')
    (keys' : List (Option Key)) : Unfinished g bound way (keys ++ keys') memo memo' := by
  induction h with
  | later hfirst _ ih => exact .later hfirst ih
  | inside hb hn hmemo hway inner => exact .inside hb hn hmemo hway inner
  | here hb hn hmemo hway inner hwritten => exact .here hb hn hmemo hway inner hwritten

theorem successive_uncut (g : Graph) (bound : Bound) (way : List String) :
    Successive (Uncut g bound way) (Unfinished g bound way) where
  done _ := .done
  unwired _ := .unwired .done
  next hfirst hrest := hfirst.append hrest
  later hfirst hrest := .later hfirst hrest
  stop hfirst keys := hfirst.append keys

/-- In a graph without cycles a node is never met again, whatever is in the memo. -/
theorem branches_uncut (hg : g.Acyclic) (bound : Bound) :
    Branches g bound (Uncut g bound) (Unfinished g bound) where
  successive := successive_uncut g bound
  named hb := .named hb .done
  absent hb hn := .absent hb hn .done
  known hb hn hmemo := .known hb hn hmemo .done
  again := fun {_ id _ _ _} _ _ _ _ hc => absurd hc (hg.not_circular id)
  fresh hb hn hmemo hway inner htext := .fresh hb hn hmemo hway inner htext .done
  inside := .inside
  here := .here

theorem uncut_render (hg : g.Acyclic) (bound : Bound) (key : Key) :
    ∃ memo, EndsAt (Uncut g bound []) (Unfinished g bound []) (some key) []
      (render g bound key, memo) :=
  (branches_uncut hg bound).endsAt_render key

/-- The expression for a node's own variable is written from parts that do not lead back to it. -/
theorem uncut_assignment (hg : g.Acyclic) (bound : Bound) (hn : g.node? id = some n) :
    ∃ outcome memo,
      Ends (Uncut g bound [id]) (Unfinished g bound [id]) ((g.origin n).wires.map wanted) []
        (outcome, memo) ∧
      assignment g bound id = outcome >>= written none (g.origin n) :=
  (branches_uncut hg bound).ends_assignment hn

end NodeFlow.Code
