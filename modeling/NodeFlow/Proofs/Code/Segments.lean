import NodeFlow.Proofs.Code.Rendering

/-!
# Names inside expressions

An expression over bound names is made of stretches of text and of the names that were looked up.
Which text stands where does not depend on the names, and neither does whether there is an
expression at all: to bind nodes to other texts is to replace the names by these
(`stretches_render`).
-/

open NodeFlow.Outcome

namespace NodeFlow.Code

/-- A stretch of an expression: text as it is, or the name of a bound node. -/
inductive Segment where
  | text (s : String)
  | name (s : String)
deriving DecidableEq, Repr

/-- A stretch with names replaced. -/
def Segment.fill (σ : String → String) : Segment → String
  | text s => s
  | name s => σ s

/-- The expression made of some stretches, with names replaced. -/
def fill (σ : String → String) (segments : List Segment) : String :=
  .join (segments.map (Segment.fill σ))

/-- Expressions that are made of the same stretches, whatever stands for the names, if there are
any. -/
def Stretches (T : (String → String) → Spelling) : Prop :=
  ∃ segments : Except TooManyDigits (List Segment), ∀ σ, T σ = segments.map (fill σ)

/-- The bound nodes with other texts in the place of their names. -/
def replaceNames (σ : String → String) (bound : Bound) : Bound :=
  bound.map fun (id, name) => (id, σ name)

variable {g : Graph} {bound : Bound} {σ : String → String}

theorem lookup_replaceNames (σ : String → String) (bound : Bound) (id : String) :
    (replaceNames σ bound).lookup id = (bound.lookup id).map σ := lookup_map_snd σ bound id

theorem replaceNames_id (bound : Bound) : replaceNames id bound = bound := List.map_id bound

theorem fill_nil : fill σ [] = "" := String.join_nil

theorem fill_cons (segment : Segment) (rest : List Segment) :
    fill σ (segment :: rest) = segment.fill σ ++ fill σ rest := String.join_cons

theorem fill_append (segments segments' : List Segment) :
    fill σ (segments ++ segments') = fill σ segments ++ fill σ segments' := by
  rw [fill, List.map_append, String.join_append]
  rfl

theorem fill_text (s : String) : fill σ [.text s] = s := by
  rw [fill_cons, fill_nil]
  exact String.append_empty

theorem fill_name (s : String) : fill σ [.name s] = σ s := by
  rw [fill_cons, fill_nil]
  exact String.append_empty

theorem stretches_text (s : String) : Stretches fun _ => .ok s :=
  ⟨.ok [.text s], fun _ => congrArg _ (fill_text s).symm⟩

theorem stretches_name (s : String) : Stretches fun σ => .ok (σ s) :=
  ⟨.ok [.name s], fun _ => congrArg _ (fill_name s).symm⟩

/-! ### Expressions of stretches -/

theorem exists_segments_piece (args : String → Option (List Segment)) (piece : Piece) :
    (∀ σ, Template.fillPiece? (fun port => (args port).map (fill σ)) piece = none) ∨
    ∃ segments, ∀ σ, Template.fillPiece? (fun port => (args port).map (fill σ)) piece =
      some (fill σ segments) := by
  cases piece with
  | text s => exact .inr ⟨[.text s], fun σ => congrArg some (fill_text s).symm⟩
  | hole port =>
    cases hport : args port with
    | none =>
      refine .inl fun σ => ?_
      rw [Template.fillPiece?, hport]
      rfl
    | some segments =>
      refine .inr ⟨segments, fun σ => ?_⟩
      rw [Template.fillPiece?, hport]
      rfl

/-- Whether a template can be filled in does not depend on the texts, and neither does where they
stand in it. -/
theorem exists_segments_pieces (args : String → Option (List Segment)) (pieces : List Piece) :
    (∀ σ, pieces.mapM (Template.fillPiece? fun port => (args port).map (fill σ)) = none) ∨
    ∃ segments, ∀ σ, ∃ texts,
      pieces.mapM (Template.fillPiece? fun port => (args port).map (fill σ)) = some texts ∧
      String.join texts = fill σ segments := by
  induction pieces with
  | nil => exact .inr ⟨[], fun σ => ⟨[], rfl, rfl⟩⟩
  | cons piece rest ih =>
    rcases exists_segments_piece args piece with first | ⟨segments, first⟩
    · refine .inl fun σ => ?_
      rw [List.mapM_cons, first]
      rfl
    · rcases ih with ih | ⟨segments', ih⟩
      · refine .inl fun σ => ?_
        rw [List.mapM_cons, first, ih]
        rfl
      · refine .inr ⟨segments ++ segments', fun σ => ?_⟩
        obtain ⟨texts, htexts, hjoin⟩ := ih σ
        refine ⟨fill σ segments :: texts, ?_, ?_⟩
        · rw [List.mapM_cons, first, htexts]
          rfl
        · rw [String.join_cons, hjoin, fill_append]

theorem exists_segments_applied (op : Operator) (handle : Option String)
    (args : List (String × List Segment)) :
    ∃ segments, ∀ σ, applied op handle (args.map fun (port, s) => (port, fill σ s)) =
      fill σ segments := by
  have hargs (σ : String → String) (port : String) :
      (args.map fun (port, s) => (port, fill σ s)).lookup port = (args.lookup port).map (fill σ) :=
    lookup_map_snd (fill σ) args port
  simp only [applied, hargs]
  cases op.template with
  | byHandle expressions =>
    exact ⟨[.text _], fun σ => (fill_text _).symm⟩
  | expression pieces =>
    rcases exists_segments_pieces (fun port => args.lookup port) pieces with h | ⟨segments, h⟩
    · refine ⟨[.text nothing], fun σ => ?_⟩
      rw [Template.fill?, h, fill_text]
      rfl
    · refine ⟨segments, fun σ => ?_⟩
      obtain ⟨texts, htexts, hjoin⟩ := h σ
      rw [Template.fill?, htexts]
      exact hjoin

theorem stretches_written (handle : Option String) (origin : Origin)
    (parts : List (List Segment)) :
    Stretches fun σ => written handle origin (parts.map (fill σ)) := by
  cases origin with
  | path p => exact stretches_text _
  | constant value dtype =>
    show Stretches fun _ => Constant.source dtype value
    cases Constant.source dtype value with
    | error c => exact ⟨.error c, fun _ => rfl⟩
    | ok text => exact stretches_text text
  | unknown => exact stretches_text _
  | edge e =>
    cases parts with
    | nil => exact stretches_text _
    | cons part rest => exact ⟨.ok part, fun σ => rfl⟩
  | operation op inputs =>
    obtain ⟨segments, h⟩ := exists_segments_applied op handle ((inputs.map (·.1)).zip parts)
    refine ⟨.ok segments, fun σ => ?_⟩
    show Except.ok _ = Except.ok (fill σ segments)
    rw [← h σ, List.zip_map_right]
    rfl

theorem stretches_composed (origin : Origin) {T : (String → String) → Key → Spelling}
    (h : ∀ e ∈ origin.edges, Stretches fun σ => T σ (e.source, e.sourceHandle))
    (handle : Option String) : Stretches fun σ => composed handle origin (T σ) := by
  obtain ⟨S, hS⟩ := exists_for_outputs
    (R := fun key (segments : Except TooManyDigits (List Segment)) =>
      ∀ σ, T σ key = segments.map (fill σ)) h
  let brings (e : Option Edge) := (wanted e).elim (.ok [.text nothing]) S
  have hparts (σ : String → String) : origin.wires.mapM (bringing (T σ)) =
      (origin.wires.mapM brings).map (List.map (fill σ)) := by
    rw [← mapM_map_result]
    refine mapM_congr fun e he => ?_
    cases e with
    | none => exact congrArg _ (fill_text nothing).symm
    | some e => exact hS e (Origin.mem_edges_iff.2 he) σ
  simp only [composed, hparts]
  cases origin.wires.mapM brings with
  | error c => exact ⟨.error c, fun σ => rfl⟩
  | ok parts => exact stretches_written handle origin parts

/-! ### Expressions over bound names -/

theorem lookup_replaceNames_of_some {id name : String} (hb : bound.lookup id = some name)
    (σ : String → String) : (replaceNames σ bound).lookup id = some (σ name) := by
  rw [lookup_replaceNames, hb]
  rfl

theorem lookup_replaceNames_of_none {id : String} (hb : bound.lookup id = none)
    (σ : String → String) : (replaceNames σ bound).lookup id = none := by
  rw [lookup_replaceNames, hb]
  rfl

theorem Renders.stretches (hg : g.Acyclic) {key : Key} {spelling : Spelling}
    (h : Renders g bound key spelling) :
    Stretches fun σ => render g (replaceNames σ bound) key := by
  induction h with
  | @named id handle name hb =>
    simp only [render_of_bound hg (lookup_replaceNames_of_some hb _)]
    exact stretches_name name
  | absent hb hn =>
    simp only [render_of_absent hg (lookup_replaceNames_of_none hb _) hn]
    exact stretches_text nothing
  | node hb hn _ _ ih =>
    simp only [render_of_node hg (lookup_replaceNames_of_none hb _) hn]
    exact stretches_composed _ ih _

/-- Bound names stand in an expression as they are. -/
theorem stretches_render (hg : g.Acyclic) (bound : Bound) (key : Key) :
    Stretches fun σ => render g (replaceNames σ bound) key :=
  (renders_render hg bound key).stretches hg

theorem stretches_assignment (hg : g.Acyclic) (bound : Bound) (id : String) :
    Stretches fun σ => assignment g (replaceNames σ bound) id := by
  cases hn : g.node? id with
  | none =>
    simp only [assignment_of_absent hn]
    exact stretches_text nothing
  | some n =>
    simp only [assignment_of_node hg hn]
    exact stretches_composed _ (fun e _ => stretches_render hg bound _) none

/-- Whether there is an expression does not depend on the names. -/
theorem Stretches.exists_ok {T : (String → String) → Spelling} (h : Stretches T)
    {σ : String → String} {text : String} (hσ : T σ = .ok text) (σ' : String → String) :
    ∃ text', T σ' = .ok text' := by
  obtain ⟨segments, hsegments⟩ := h
  rw [hsegments] at hσ
  obtain ⟨found, rfl, -⟩ := map_eq_ok_iff.1 hσ
  exact ⟨_, hsegments σ'⟩

end NodeFlow.Code
