import NodeFlow.Proofs.Value.Source
import NodeFlow.Session.Step
import Mathlib.Tactic.Common

/-!
# What the steps of a session change

A step that edits a session is carried out or refused (`run_outcome`).  Carried out, it adds a node
under the name that is drawn for it, draws an edge that may be drawn, or applies one of the actions
that remove or edit what is there.  Refused, it leaves the graph as it was, and at most a name is
used up.  That holds of a step that breaks off at an integer which cannot be written, too.
-/

namespace NodeFlow.Session

/-! ### Steps that edit -/

/-- The steps that edit a graph in one respect. -/
inductive EditStep where
  | addField
  | addConst
  | addOperator
  | addOutput
  | connect
  | disconnect
  | editConst
  | removeNode
deriving DecidableEq, Repr

def EditStep.name : EditStep → String
  | addField => "add_field"
  | addConst => "add_const"
  | addOperator => "add_operator"
  | addOutput => "add_output"
  | connect => "connect"
  | disconnect => "disconnect"
  | editConst => "edit_const"
  | removeNode => "remove_node"

/-- A step with the arguments that it is given, whatever these are. -/
structure Call where
  step : EditStep
  arguments : List Value

/-- What a call gives, and the session after it. -/
def call (s : Session) (c : Call) : Except SessionError Reply × Session :=
  (perform c.step.name c.arguments).run.run s

/-- The session after calls, one after the other. -/
def after (s : Session) (calls : List Call) : Session := calls.foldl (fun s c => (s.call c).2) s

theorem after_induction {P : Session → Prop} {s : Session} (hs : P s)
    (hcall : ∀ s c, P s → P (s.call c).2) (calls : List Call) : P (s.after calls) := by
  induction calls generalizing s with
  | nil => exact hs
  | cons c rest ih => exact ih (hcall s c hs)

/-! ### What happens -/

/-- The words for the kinds of new nodes. -/
def nodeWords : List String := ["field", "const", "op", "output"]

/-- The name that is drawn for a new node. -/
def drawnId (s : Session) (word : String) : String := ((IdSource.draw word).run s.ids).1

/-- The actions that remove or edit what is there. -/
def IsLesser : Action → Prop
  | .removeNode _ | .removeEdge _ | .editConst .. => True
  | .addNode _ | .addEdge _ => False

/-- A step is carried out: what it gives, and the session after it. -/
inductive Change (s : Session) : Reply → Session → Prop
  | added {word : String} (hword : word ∈ nodeWords) (content : Content) :
    Change s (.id (s.drawnId word))
      { s with
        graph := { s.graph with nodes := s.graph.nodes ++ [⟨s.drawnId word, none, content⟩] }
        ids := { s.ids with next := s.ids.next + 1 } }
  | connected {e : Edge} (he : s.graph.mayConnect e = true) :
    Change s (.edge e) { s with graph := { s.graph with edges := s.graph.edges ++ [e] } }
  | applied {a : Action} {graph : Graph} (ha : IsLesser a) (h : a.apply s.graph = .ok graph) :
    Change s (.graph graph) { s with graph }

/-- A step is refused: at most a name is used up. -/
inductive Refusal (s : Session) : Session → Prop
  | same : Refusal s s
  | drawn : Refusal s { s with ids := { s.ids with next := s.ids.next + 1 } }

/-- How a step ends. -/
def Outcome (s : Session) (result : Except SessionError Reply × Session) : Prop :=
  match result.1 with
  | .ok reply => Change s reply result.2
  | .error _ => Refusal s result.2

variable {s : Session} {α β : Type}

theorem run_bind (x : Edit α) (f : α → Edit β) (s : Session) :
    (x >>= f).run.run s =
      match x.run.run s with
      | (.ok a, s') => (f a).run.run s'
      | (.error e, s') => (.error e, s') := by
  show (x.run >>= ExceptT.bindCont f).run s = _
  rw [StateT.run_bind]
  rcases x.run.run s with ⟨a | e, s'⟩ <;> rfl

theorem run_map (f : α → β) (x : Edit α) (s : Session) :
    (f <$> x).run.run s = ((x.run.run s).1.map f, (x.run.run s).2) := by
  rw [← bind_pure_comp, run_bind]
  rcases x.run.run s with ⟨a | e, s'⟩ <;> rfl

/-- What is computed without a change of the session. -/
def Steady (x : Edit α) : Prop := ∀ s, ∃ result, x.run.run s = (result, s)

theorem run_checked (x : Checked α) (s : Session) :
    (checked x).run.run s = (x.mapError .issues, s) := by
  cases x <;> rfl

theorem steady_checked (x : Checked α) : Steady (checked x) := fun s => ⟨_, run_checked x s⟩

theorem run_written (x : Except TooManyDigits α) (s : Session) :
    (written x).run.run s = (x.mapError fun _ => .unwritable, s) := by
  cases x <;> rfl

theorem run_dispatch (a : Action) (s : Session) :
    (dispatch a).run.run s =
      match a.apply s.graph with
      | .ok graph => (.ok graph, { s with graph })
      | .error _ => (.error .unwritable, s) := by
  show (written (a.apply s.graph) >>= fun graph => _).run.run s = _
  rw [run_bind, run_written]
  cases a.apply s.graph <;> rfl

theorem run_drawId (word : String) (s : Session) :
    (drawId word).run.run s =
      (.ok (s.drawnId word), { s with ids := { s.ids with next := s.ids.next + 1 } }) := rfl

theorem steady_arguments (atLeast : Nat) (defaults args : List Value) :
    Steady (arguments atLeast defaults args) := by
  intro s
  rw [arguments]
  split
  · exact ⟨_, rfl⟩
  · exact ⟨_, rfl⟩

theorem outcome_arguments {atLeast : Nat} {defaults args : List Value}
    {f : List Value → Edit Reply} (h : ∀ args, Outcome s ((f args).run.run s)) :
    Outcome s ((arguments atLeast defaults args >>= f).run.run s) := by
  obtain ⟨result, hresult⟩ := steady_arguments atLeast defaults args s
  rw [run_bind, hresult]
  cases result with
  | error e => exact Refusal.same
  | ok args => exact h args

theorem outcome_add {word : String} (hword : word ∈ nodeWords) {content : Edit Content}
    (hcontent : Steady content) : Outcome s ((Reply.id <$> add word content).run.run s) := by
  obtain ⟨result, hresult⟩ := hcontent { s with ids := { s.ids with next := s.ids.next + 1 } }
  rw [run_map, add, run_bind, run_drawId]
  dsimp only
  rw [run_bind, hresult]
  cases result with
  | error e => exact Refusal.drawn
  | ok content => exact Change.added hword content

theorem outcome_dispatch {x : Checked Action} (h : ∀ a, x = .ok a → IsLesser a) :
    Outcome s ((Reply.graph <$> (checked x >>= dispatch)).run.run s) := by
  rw [run_map, run_bind, run_checked]
  cases x with
  | error issues => exact Refusal.same
  | ok a =>
    show Outcome s (((dispatch a).run.run s).1.map _, ((dispatch a).run.run s).2)
    rw [run_dispatch]
    cases hgraph : a.apply s.graph with
    | error c => exact Refusal.same
    | ok graph => exact Change.applied (h a rfl) hgraph

/-- The edge that is drawn between two places, under a name. -/
def edgeBetween (name : String) (source target targetHandle sourceHandle : Value) : Checked Edge :=
  Graph.readEdgeParts [
    (.str "id", .atom (.ofText name)),
    (.str "source", source), (.str "source_handle", sourceHandle), (.str "target", target),
    (.str "target_handle", targetHandle)]

/-- A text as it is given to a step. -/
def textValue (s : String) : Value := .atom (.ofText s)

/-- A handle as it is given to a step, nothing if it is left out. -/
def handleValue (handle : Option String) : Value := handle.elim .null textValue

/-- Whether no text of an edge holds half of a surrogate pair. -/
def readable (source target : String) (targetHandle sourceHandle : Option String) : Bool :=
  !Text.isBroken source && !Text.isBroken target && !targetHandle.any Text.isBroken &&
    !sourceHandle.any Text.isBroken

/-- Texts that hold half of a surrogate pair are refused where a text is read.  Packages for checking
data differ in this from version to version, so it is named where something rests on it. -/
def RefusesHalves : Prop :=
  ∀ s t, Schema.text (textValue s) = .ok t → Text.isBroken s = false

theorem readable_iff {source target : String} {targetHandle sourceHandle : Option String} :
    readable source target targetHandle sourceHandle = true ↔
      ((Text.isBroken source = false ∧ Text.isBroken target = false) ∧
        targetHandle.any Text.isBroken = false) ∧ sourceHandle.any Text.isBroken = false := by
  simp only [readable, Bool.and_eq_true, Bool.not_eq_true']

theorem isBroken_append (s t : String) :
    Text.isBroken (s ++ t) = (Text.isBroken s || Text.isBroken t) := by
  rw [Text.isBroken, String.toList_append, List.any_append]
  rfl

/-! ### Texts that are read -/

theorem text_textValue {text : String} (h : Text.isBroken text = false) :
    Schema.text (textValue text) = .ok text := by
  rw [textValue, Atom.ofText, h]
  rfl

theorem text?_textValue (text : String) :
    Schema.text? (textValue text) = (Schema.text (textValue text)).map some := by
  rw [textValue, Atom.ofText]
  split <;> rfl

theorem text?_handleValue {handle : Option String} (h : handle.any Text.isBroken = false) :
    Schema.text? (handleValue handle) = .ok handle := by
  cases handle with
  | none => rfl
  | some text =>
    rw [handleValue, Option.elim_some, text?_textValue, text_textValue h]
    rfl

theorem RefusesHalves.handle (hhalves : RefusesHalves) {handle handle' : Option String}
    (h : Schema.text? (handleValue handle) = .ok handle') :
    handle.any Text.isBroken = false := by
  cases handle with
  | none => rfl
  | some text =>
    rw [handleValue, Option.elim_some, text?_textValue] at h
    obtain ⟨t, ht, -⟩ := Outcome.map_eq_ok_iff.1 h
    exact hhalves text t ht

/-! ### The edge between two places -/

/-- The name of an edge between two places that are given as texts. -/
def nameOf (source target : String) (targetHandle sourceHandle : Option String) : String :=
  source ++ ":" ++ Text.orElse (sourceHandle.getD "") "out" ++ "->"
    ++ target ++ ":" ++ Text.orElse (targetHandle.getD "") "in"

/-- The edge between two places that are given as texts. -/
def edgeOf (source target : String) (targetHandle sourceHandle : Option String) : Edge :=
  ⟨some (nameOf source target targetHandle sourceHandle), source, sourceHandle, target,
    targetHandle⟩

theorem spelled_textValue (text : String) : (textValue text).spelled = .ok text := by
  rw [textValue, Atom.ofText]
  split <;> exact Value.spelled_of_isWritable rfl

theorem truthy_textValue (text : String) : (textValue text).truthy = !text.isEmpty := by
  rw [Bool.eq_iff_iff, Bool.not_eq_true', ← Bool.not_eq_true, String.isEmpty_iff, textValue,
    Atom.ofText]
  split
  · next hbroken =>
    refine iff_of_true rfl ?_
    rintro rfl
    revert hbroken
    decide
  · exact bne_iff_ne

theorem handleText_handleValue (handle : Option String) (default : String) :
    handleText (handleValue handle) default = .ok (Text.orElse (handle.getD "") default) := by
  cases handle with
  | none => rfl
  | some text =>
    rw [handleText, handleValue, Option.elim_some, truthy_textValue, spelled_textValue,
      Option.getD_some, Text.orElse]
    cases text.isEmpty <;> rfl

theorem edgeName_textValue (source target : String) (targetHandle sourceHandle : Option String) :
    edgeName (textValue source) (textValue target) (handleValue targetHandle)
      (handleValue sourceHandle) = .ok (nameOf source target targetHandle sourceHandle) := by
  rw [edgeName, spelled_textValue, spelled_textValue, handleText_handleValue,
    handleText_handleValue]
  rfl

theorem isBroken_orElse {handle : Option String} {default : String}
    (h : handle.any Text.isBroken = false) (hdefault : Text.isBroken default = false) :
    Text.isBroken (Text.orElse (handle.getD "") default) = false := by
  rw [Text.orElse]
  split
  · exact hdefault
  · cases handle with
    | none => rfl
    | some text => exact h

theorem isBroken_nameOf {source target : String} {targetHandle sourceHandle : Option String}
    (h : readable source target targetHandle sourceHandle = true) :
    Text.isBroken (nameOf source target targetHandle sourceHandle) = false := by
  obtain ⟨⟨⟨hsource, htarget⟩, hth⟩, hsh⟩ := readable_iff.1 h
  have hout := isBroken_orElse hsh (by decide : Text.isBroken "out" = false)
  have hin := isBroken_orElse hth (by decide : Text.isBroken "in" = false)
  have hcolon : Text.isBroken ":" = false := by decide
  have harrow : Text.isBroken "->" = false := by decide
  simp only [nameOf, isBroken_append, Bool.or_eq_false_iff]
  exact ⟨⟨⟨⟨⟨⟨hsource, hcolon⟩, hout⟩, harrow⟩, htarget⟩, hcolon⟩, hin⟩

/-- An edge is read part by part. -/
theorem edgeBetween_eq_ok_iff {name : String} {source target targetHandle sourceHandle : Value}
    {e : Edge} :
    edgeBetween name source target targetHandle sourceHandle = .ok e ↔
      (((Schema.text? (textValue name) = .ok e.id ∧
        Schema.text source = .ok e.source) ∧ Schema.text? sourceHandle = .ok e.sourceHandle) ∧
        Schema.text target = .ok e.target) ∧ Schema.text? targetHandle = .ok e.targetHandle := by
  have hparts : edgeBetween name source target targetHandle sourceHandle =
      ((((((Schema.text? (textValue name)).under (.name "id")).both
        ((Schema.text source).under (.name "source"))).both
        ((Schema.text? sourceHandle).under (.name "source_handle"))).both
        ((Schema.text target).under (.name "target"))).both
        ((Schema.text? targetHandle).under (.name "target_handle"))).map
          fun x => ⟨x.1.1.1.1, x.1.1.1.2, x.1.1.2, x.1.2, x.2⟩ := rfl
  rw [hparts, Outcome.map_eq_ok_iff]
  constructor
  · rintro ⟨⟨⟨⟨⟨id, source⟩, sourceHandle⟩, target⟩, targetHandle⟩, h, rfl⟩
    simpa only [Checked.both_eq_ok_iff, Checked.under_eq_ok_iff] using h
  · intro h
    refine ⟨((((e.id, e.source), e.sourceHandle), e.target), e.targetHandle), ?_, rfl⟩
    simpa only [Checked.both_eq_ok_iff, Checked.under_eq_ok_iff] using h

variable {source target : String} {targetHandle sourceHandle : Option String}

theorem edgeBetween_of_readable (h : readable source target targetHandle sourceHandle = true) :
    edgeBetween (nameOf source target targetHandle sourceHandle) (textValue source)
      (textValue target) (handleValue targetHandle) (handleValue sourceHandle) =
      .ok (edgeOf source target targetHandle sourceHandle) := by
  obtain ⟨⟨⟨hsource, htarget⟩, hth⟩, hsh⟩ := readable_iff.1 h
  have hname := @text?_handleValue (some (nameOf source target targetHandle sourceHandle))
    (isBroken_nameOf h)
  exact edgeBetween_eq_ok_iff.2 ⟨⟨⟨⟨hname, text_textValue hsource⟩, text?_handleValue hsh⟩,
    text_textValue htarget⟩, text?_handleValue hth⟩

theorem RefusesHalves.readable (hhalves : RefusesHalves) {name : String} {e : Edge}
    (h : edgeBetween name (textValue source) (textValue target) (handleValue targetHandle)
      (handleValue sourceHandle) = .ok e) :
    readable source target targetHandle sourceHandle = true := by
  obtain ⟨⟨⟨⟨-, hsource⟩, hsh⟩, htarget⟩, hth⟩ := edgeBetween_eq_ok_iff.1 h
  exact readable_iff.2 ⟨⟨⟨hhalves _ _ hsource, hhalves _ _ htarget⟩, hhalves.handle hth⟩,
    hhalves.handle hsh⟩

/-! ### Connections -/

/-- An edge is drawn exactly if it may be. -/
theorem run_connect (source target targetHandle sourceHandle : Value) (s : Session) :
    (connect source target targetHandle sourceHandle).run.run s =
      match edgeName source target targetHandle sourceHandle with
      | .error _ => (.error .unwritable, s)
      | .ok name =>
        match edgeBetween name source target targetHandle sourceHandle with
        | .error issues => (.error (.issues issues), s)
        | .ok e =>
          if s.graph.mayConnect e then
            (.ok e, { s with graph := { s.graph with edges := s.graph.edges ++ [e] } })
          else (.error (refusal s.graph e), s) := by
  rw [connect, run_bind, run_written]
  cases edgeName source target targetHandle sourceHandle with
  | error c => rfl
  | ok name =>
    show (checked (edgeBetween name source target targetHandle sourceHandle) >>= _).run.run s = _
    rw [run_bind, run_checked]
    dsimp only
    cases edgeBetween name source target targetHandle sourceHandle with
    | error issues => rfl
    | ok e =>
      show (if s.graph.mayConnect e then
        (do let _ ← dispatch (.addEdge e); return e) else throw (refusal s.graph e) :
          Edit Edge).run.run s = if s.graph.mayConnect e then _ else _
      by_cases he : s.graph.mayConnect e = true
      · rw [if_pos he, if_pos he]
        rfl
      · rw [if_neg he, if_neg he]
        rfl

theorem outcome_connect (source target targetHandle sourceHandle : Value) : Outcome s
    ((Reply.edge <$> connect source target targetHandle sourceHandle).run.run s) := by
  rw [run_map, run_connect]
  cases edgeName source target targetHandle sourceHandle with
  | error c => exact Refusal.same
  | ok name =>
    dsimp only
    cases edgeBetween name source target targetHandle sourceHandle with
    | error issues => exact Refusal.same
    | ok e =>
      dsimp only
      split
      · next he => exact Change.connected he
      · exact Refusal.same

/-- The call that draws an edge between two places that are given as texts. -/
def connectCall (source target : String) (targetHandle sourceHandle : Option String) : Call :=
  ⟨.connect,
    [textValue source, textValue target, handleValue targetHandle, handleValue sourceHandle]⟩

theorem run_arguments_all (a b c d : Value) (s : Session) :
    (arguments 2 [.null, .null] [a, b, c, d]).run.run s = (.ok [a, b, c, d], s) := rfl

theorem call_connect_eq (a b c d : Value) (s : Session) :
    s.call ⟨.connect, [a, b, c, d]⟩ = (Reply.edge <$> connect a b c d).run.run s := by
  show (arguments 2 [.null, .null] [a, b, c, d] >>= fun args => Reply.edge <$>
    connect (args.getD 0 .null) (args.getD 1 .null) (args.getD 2 .null) (args.getD 3 .null)).run.run
      s = _
  rw [run_bind, run_arguments_all]
  rfl

theorem call_connect (s : Session) :
    let e := edgeOf source target targetHandle sourceHandle
    let outcome := s.call (connectCall source target targetHandle sourceHandle)
    if readable source target targetHandle sourceHandle then
      outcome = if s.graph.mayConnect e then
          (.ok (.edge e), { s with graph := { s.graph with edges := s.graph.edges ++ [e] } })
        else (.error (refusal s.graph e), s)
    else RefusesHalves → ∃ issues, outcome = (.error (.issues issues), s) := by
  intro e outcome
  have houtcome : outcome = (Reply.edge <$> connect (textValue source) (textValue target)
      (handleValue targetHandle) (handleValue sourceHandle)).run.run s := call_connect_eq ..
  rw [houtcome, run_map, run_connect, edgeName_textValue]
  dsimp only
  split
  · next hread =>
    rw [edgeBetween_of_readable hread]
    dsimp only
    split <;> rfl
  · next hread =>
    intro hhalves
    cases hedge : edgeBetween (nameOf source target targetHandle sourceHandle) (textValue source)
      (textValue target) (handleValue targetHandle) (handleValue sourceHandle) with
    | error issues => exact ⟨issues, rfl⟩
    | ok e => exact absurd (hhalves.readable hedge) hread

theorem isLesser_of_map {x : Checked α} {f : α → Action} (hf : ∀ a, IsLesser (f a)) (a : Action)
    (h : x.map f = .ok a) : IsLesser a := by
  obtain ⟨b, -, rfl⟩ := Outcome.map_eq_ok_iff.1 h
  exact hf b

theorem run_outcome (s : Session) (c : Call) : Outcome s (s.call c) := by
  obtain ⟨step, args⟩ := c
  cases step with
  | addField | addConst | addOutput =>
    exact outcome_arguments fun args => outcome_add (by decide) (steady_checked _)
  | addOperator =>
    refine outcome_arguments fun args => outcome_add (by decide) ?_
    cases parts? (args.getD 2 .null) with
    | none => exact fun s => ⟨_, rfl⟩
    | some inputs => exact steady_checked _
  | connect => exact outcome_arguments fun args => outcome_connect ..
  | disconnect | editConst | removeNode =>
    exact outcome_arguments fun args => outcome_dispatch (isLesser_of_map fun _ => trivial)

end NodeFlow.Session
