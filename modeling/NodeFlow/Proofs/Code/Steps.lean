import NodeFlow.Proofs.Code.Uncut

/-!
# What a rendering does

`Rendering g bound way keys memo texts memo' steps` tells of the writing of some outputs over bound
names, one after the other, what was done in turn.  Each time that an output is asked for is a step:
the nodes on the way to it, its node, what was written in its place, and whether the expression of
the node was written out for it.  It follows all branches of `renderFrom` that give an expression,
the mark of a cycle included, and every rendering that gives one is such a run (`rendering_render`,
`rendering_assignment`).

The nodes on the way to a step depend on each other in turn (`Rendering.chain`), and a node with a
name is written as that name and never written out (`Rendering.eq_name`).
-/

open Relation NodeFlow.Outcome

namespace NodeFlow.Code

/-- An output was asked for while the nodes of `way` were being written, the newest first. -/
structure Step where
  way : List String
  node : String
  text : String
  /-- The node's own expression was written out. -/
  writtenOut : Bool
deriving DecidableEq, Repr

/-- The outputs `keys` are written as `texts` while the nodes of `way` are being written. -/
inductive Rendering (g : Graph) (bound : Bound) :
    List String → List (Option Key) → Memo → List String → Memo → List Step → Prop
  | done {way : List String} {memo : Memo} : Rendering g bound way [] memo [] memo []
  | unwired {way keys memo texts memo' steps}
      (rest : Rendering g bound way keys memo texts memo' steps) :
      Rendering g bound way (none :: keys) memo (nothing :: texts) memo' steps
  | named {way id handle name keys memo texts memo' steps} (hb : bound.lookup id = some name)
      (rest : Rendering g bound way keys memo texts memo' steps) :
      Rendering g bound way (some (id, handle) :: keys) memo (name :: texts) memo'
        (⟨way, id, name, false⟩ :: steps)
  | absent {way id handle keys memo texts memo' steps} (hb : bound.lookup id = none)
      (hn : g.node? id = none) (rest : Rendering g bound way keys memo texts memo' steps) :
      Rendering g bound way (some (id, handle) :: keys) memo (nothing :: texts) memo'
        (⟨way, id, nothing, false⟩ :: steps)
  | known {way id handle n text keys memo texts memo' steps} (hb : bound.lookup id = none)
      (hn : g.node? id = some n) (hmemo : memo.lookup (id, handle) = some text)
      (rest : Rendering g bound way keys memo texts memo' steps) :
      Rendering g bound way (some (id, handle) :: keys) memo (text :: texts) memo'
        (⟨way, id, text, false⟩ :: steps)
  | again {way id handle n keys memo texts memo' steps} (hb : bound.lookup id = none)
      (hn : g.node? id = some n) (hmemo : memo.lookup (id, handle) = none) (hway : id ∈ way)
      (rest : Rendering g bound way keys memo texts memo' steps) :
      Rendering g bound way (some (id, handle) :: keys) memo (cycleMark :: texts) memo'
        (⟨way, id, cycleMark, false⟩ :: steps)
  | fresh {way id handle n text parts keys memo memo' texts memo'' inside steps}
      (hb : bound.lookup id = none) (hn : g.node? id = some n)
      (hmemo : memo.lookup (id, handle) = none) (hway : id ∉ way)
      (inner : Rendering g bound (id :: way) ((g.origin n).wires.map wanted) memo parts memo'
        inside)
      (htext : written handle (g.origin n) parts = .ok text)
      (rest : Rendering g bound way keys (((id, handle), text) :: memo') texts memo'' steps) :
      Rendering g bound way (some (id, handle) :: keys) memo (text :: texts) memo''
        (⟨way, id, text, true⟩ :: inside ++ steps)

variable {g : Graph} {bound : Bound} {way : List String} {keys keys' : List (Option Key)}
  {texts texts' : List String} {memo memo' memo'' : Memo} {steps steps' : List Step} {key : Key}
  {id text : String} {n : Node}

theorem Rendering.append (h : Rendering g bound way keys memo texts memo' steps)
    (h' : Rendering g bound way keys' memo' texts' memo'' steps') :
    Rendering g bound way (keys ++ keys') memo (texts ++ texts') memo'' (steps ++ steps') := by
  induction h with
  | done => exact h'
  | unwired _ ih => exact .unwired (ih h')
  | named hb _ ih => exact .named hb (ih h')
  | absent hb hn _ ih => exact .absent hb hn (ih h')
  | known hb hn hmemo _ ih => exact .known hb hn hmemo (ih h')
  | again hb hn hmemo hway _ ih => exact .again hb hn hmemo hway (ih h')
  | fresh hb hn hmemo hway inner htext _ _ ih =>
    rw [List.cons_append, List.append_assoc, ← List.cons_append]
    exact .fresh hb hn hmemo hway inner htext (ih h')

/-! ### Renderings are runs -/

/-- Outputs are written in some steps. -/
def Written (g : Graph) (bound : Bound) (way : List String) (keys : List (Option Key)) (memo : Memo)
    (texts : List String) (memo' : Memo) : Prop :=
  ∃ steps, Rendering g bound way keys memo texts memo' steps

theorem successive_written (g : Graph) (bound : Bound) (way : List String) :
    Successive (Written g bound way) fun _ _ _ => True where
  done _ := ⟨[], .done⟩
  unwired _ := ⟨[], .unwired .done⟩
  next := fun ⟨steps, hfirst⟩ ⟨steps', hrest⟩ => ⟨steps ++ steps', hfirst.append hrest⟩
  later _ _ := trivial
  stop _ _ := trivial

theorem branches_written (g : Graph) (bound : Bound) :
    Branches g bound (Written g bound) fun _ _ _ _ => True where
  successive := successive_written g bound
  named hb := ⟨_, .named hb .done⟩
  absent hb hn := ⟨_, .absent hb hn .done⟩
  known hb hn hmemo := ⟨_, .known hb hn hmemo .done⟩
  again hb hn hmemo hway _ := ⟨_, .again hb hn hmemo hway .done⟩
  fresh := fun hb hn hmemo hway ⟨_, inner⟩ htext => ⟨_, .fresh hb hn hmemo hway inner htext .done⟩
  inside _ _ _ _ _ := trivial
  here _ _ _ _ _ _ := trivial

theorem rendering_render (htext : render g bound key = .ok text) :
    ∃ memo steps, Rendering g bound [] [some key] [] [text] memo steps := by
  obtain ⟨memo, hends⟩ := (branches_written g bound).endsAt_render key
  rw [htext] at hends
  exact ⟨memo, hends⟩

/-- The expression for a node's own variable is written from parts. -/
theorem rendering_assignment (hn : g.node? id = some n)
    (htext : assignment g bound id = .ok text) :
    ∃ parts memo steps,
      Rendering g bound [id] ((g.origin n).wires.map wanted) [] parts memo steps ∧
      written none (g.origin n) parts = .ok text := by
  obtain ⟨outcome, memo, hends, hassignment⟩ := (branches_written g bound).ends_assignment hn
  obtain ⟨parts, rfl, hwritten⟩ := bind_eq_ok_iff.1 (hassignment.symm.trans htext)
  obtain ⟨steps, hsteps⟩ := hends
  exact ⟨parts, memo, steps, hsteps, hwritten⟩

/-! ### What the steps are -/

/-- A node with a name is written as that name. -/
theorem Rendering.eq_name (h : Rendering g bound way keys memo texts memo' steps) {step : Step}
    (hstep : step ∈ steps) {name : String} (hname : bound.lookup step.node = some name) :
    step.text = name ∧ step.writtenOut = false := by
  induction h with
  | done => cases hstep
  | unwired _ ih => exact ih hstep
  | named hb _ ih =>
    rcases List.mem_cons.1 hstep with rfl | hstep
    · exact ⟨Option.some.inj (hb.symm.trans hname), rfl⟩
    · exact ih hstep
  | absent hb _ _ ih | known hb _ _ _ ih | again hb _ _ _ _ ih =>
    rcases List.mem_cons.1 hstep with rfl | hstep
    · cases hb.symm.trans hname
    · exact ih hstep
  | fresh hb _ _ _ _ _ _ ihinner ih =>
    rcases List.mem_cons.1 hstep with rfl | hstep
    · cases hb.symm.trans hname
    · exact (List.mem_append.1 hstep).elim ihinner ih

/-- Each output that is asked for belongs to a node that the last node on the way depends on, and
that one to the node before it, and so on. -/
def Descends (g : Graph) (way : List String) (keys : List (Option Key)) : Prop :=
  ∀ key, some key ∈ keys → (key.1 :: way).IsChain fun u v => g.Depends v u

theorem Descends.of_cons {key : Option Key} (h : Descends g way (key :: keys)) :
    Descends g way keys :=
  fun other hother => h other (List.mem_cons_of_mem key hother)

theorem descends_wires (hn : g.node? id = some n)
    (hway : (id :: way).IsChain fun u v => g.Depends v u) :
    Descends g (id :: way) ((g.origin n).wires.map wanted) :=
  fun _ hkey => .cons_cons (Graph.depends_of_wanted hn hkey) hway

/-- The way to a step goes on from where the run began, along dependencies. -/
theorem Rendering.chain (h : Rendering g bound way keys memo texts memo' steps)
    (hkeys : Descends g way keys) {step : Step} (hstep : step ∈ steps) :
    way <:+ step.way ∧ (step.node :: step.way).IsChain fun u v => g.Depends v u := by
  induction h with
  | done => cases hstep
  | unwired _ ih => exact ih hkeys.of_cons hstep
  | named _ _ ih | absent _ _ _ ih | known _ _ _ _ ih | again _ _ _ _ _ ih =>
    rcases List.mem_cons.1 hstep with rfl | hstep
    · exact ⟨List.suffix_refl _, hkeys _ List.mem_cons_self⟩
    · exact ih hkeys.of_cons hstep
  | @fresh way id _ _ _ _ _ _ _ _ _ _ _ _ hn _ _ _ _ _ ihinner ih =>
    have hfirst : (id :: way).IsChain fun u v => g.Depends v u := hkeys _ List.mem_cons_self
    rcases List.mem_cons.1 hstep with rfl | hstep
    · exact ⟨List.suffix_refl _, hfirst⟩
    · rcases List.mem_append.1 hstep with hstep | hstep
      · obtain ⟨hsuffix, hchain⟩ := ihinner (descends_wires hn hfirst) hstep
        exact ⟨(List.suffix_cons id way).trans hsuffix, hchain⟩
      · exact ih hkeys.of_cons hstep

end NodeFlow.Code
