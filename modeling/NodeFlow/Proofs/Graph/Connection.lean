import NodeFlow.Proofs.Graph.Messages

/-!
# Edges that may be drawn, and the report

Whether an edge may be drawn is asked of the edge alone, and what is wrong with a graph is told by a
report on all of it.  The two agree (`mayConnect_iff_report`): drawing one more edge, other than the
scope edge of a loop, adds an error to the report if the edge is out of place, a warning if it
connects types that do not go together, and neither of them exactly if it may be drawn.
-/

namespace NodeFlow

/-- The words about types at the end of a warning. -/
def typeWords (source target : Dtype) : String :=
  " carries " ++ source.name ++ " into a " ++ target.name ++ " port."

/-- Whether a message warns that an edge carries one type into a port of another. -/
def isTypeWarning (message : String) : Bool :=
  "WARN: Edge ".toList.isPrefixOf message.toList &&
    Dtype.all.any fun source => Dtype.all.any fun target =>
      (typeWords source target).toList.isSuffixOf message.toList

namespace Finding

variable {f : Finding}

/-- Whether a finding tells of types that do not go together. -/
def tellsOfTypes : Finding → Bool
  | typesClash .. => true
  | _ => false

theorem isTypeWarning_iff {message : String} : isTypeWarning message = true ↔
    "WARN: Edge ".toList <+: message.toList ∧
      ∃ source target, (typeWords source target).toList <:+ message.toList := by
  have hall (t : Dtype) : t ∈ Dtype.all := by cases t <;> decide
  simp only [isTypeWarning, Bool.and_eq_true, List.any_eq_true, List.isPrefixOf_iff_prefix,
    List.isSuffixOf_iff_suffix, hall, true_and]

theorem head?_of_prefix {s t : String} {c : Char} (h : s.toList <+: t.toList)
    (hs : s.toList.head? = some c) : t.toList.head? = some c := by
  obtain ⟨rest, hrest⟩ := h
  rw [← hrest, List.head?_append, hs, Option.some_or]

/-- A message that begins like a warning about an edge is a doubt whose text begins like it. -/
theorem prefix_message (h : "WARN: Edge ".toList <+: f.message.toList) :
    f.severity = .doubt ∧ "Edge ".toList <+: f.text.toList := by
  have hhead := head?_of_prefix h (c := 'W') (by decide)
  have hword (s : Severity) (hs : s ≠ .doubt) :
      (severityWord s).toList.head? ≠ some 'W' ∧ (severityWord s).toList.head?.isSome := by
    cases s with
    | doubt => exact absurd rfl hs
    | fine | fault => decide
  have hdoubt : f.severity = .doubt := by
    by_contra hne
    rw [message, String.append_assoc] at hhead
    exact head?_append_ne (hword _ hne) hhead
  have hsplit : "WARN: Edge ".toList = "WARN: ".toList ++ "Edge ".toList := by decide
  have hwarn : severityWord .doubt ++ ": " = "WARN: " := by decide
  rw [message, hdoubt, hwarn, String.toList_append, hsplit] at h
  exact ⟨hdoubt, (List.prefix_append_right_inj _).1 h⟩

theorem message_typesClash (e : Edge) (source target : Dtype) :
    (typesClash e source target).message =
      "WARN: Edge " ++ edgeText e ++ typeWords source target := by
  have hword : "WARN: Edge " = "WARN" ++ ": " ++ "Edge " := by decide
  have hdoubt : severityWord (typesClash e source target).severity = "WARN" := rfl
  have htext : (typesClash e source target).text = "Edge " ++ edgeText e ++ " carries " ++
      source.name ++ " into a " ++ target.name ++ " port." := by
    unfold text
    rfl
  rw [message, hdoubt, htext, hword, typeWords]
  simp only [String.append_assoc]

theorem isTypeWarning_of_clash (e : Edge) (source target : Dtype) :
    isTypeWarning (typesClash e source target).message = true := by
  rw [isTypeWarning_iff, message_typesClash]
  refine ⟨?_, source, target, ?_⟩
  · rw [String.append_assoc, String.toList_append]
    exact List.prefix_append ..
  · rw [String.toList_append]
    exact List.suffix_append ..

/-- A warning about an input ends in other words. -/
theorem not_typeWords_suffix (e : Edge) (source target : Dtype) :
    ¬ (typeWords source target).toList <:+ (inputUnknown e).message.toList := by
  intro h
  have hport : " port.".toList <:+ (inputUnknown e).message.toList := by
    refine List.IsSuffix.trans ?_ h
    rw [typeWords, String.toList_append]
    exact List.suffix_append ..
  have hnode : " node.".toList <:+ (inputUnknown e).message.toList := by
    have hsplit : " is not an input on that node." = " is not an input on that" ++ " node." := by
      decide
    unfold message text
    dsimp only
    rw [hsplit, ← String.append_assoc, ← String.append_assoc, String.toList_append]
    exact List.suffix_append ..
  exact absurd (List.suffix_of_suffix_length_le hport hnode (by decide)) (by decide)

theorem isTypeWarning_message : isTypeWarning f.message = f.tellsOfTypes := by
  rw [Bool.eq_iff_iff]
  constructor
  · intro h
    obtain ⟨hbegin, source, target, hsuffix⟩ := isTypeWarning_iff.1 h
    obtain ⟨hseverity, htext⟩ := prefix_message hbegin
    have hhead := head?_of_prefix htext (c := 'E') (by decide)
    cases f with
    | typesClash => rfl
    | inputUnknown e => exact absurd hsuffix (not_typeWords_suffix e source target)
    | operatorUnknown | inputShared | loopIdle =>
      unfold text at hhead
      simp only [String.append_assoc] at hhead
      exact absurd hhead (head?_append_ne (by decide))
    | cyclic => exact absurd hhead (by decide)
    | idsUnique | idsRepeated | edgesFine | edgeDangling | edgeIntoSource | operatorsFine
    | acyclic => cases hseverity
  · intro h
    cases f with
    | typesClash e source target => exact isTypeWarning_of_clash e source target
    | _ => cases h

theorem tellsOfTypes_of_fault (h : f.severity = .fault) : f.tellsOfTypes = false := by
  cases f <;> first | rfl | cases h

end Finding

namespace Graph

variable {g : Graph} {e : Edge} {f : Finding}

/-! ### Warnings about types -/

/-- The warning about the types that an edge connects, if it carries data into a node that takes
it. -/
def typeClashes (g : Graph) (e : Edge) : List Finding :=
  match g.node? e.source, g.node? e.target with
  | some source, some target =>
    if !target.takesInput || g.isScopeEdge e then [] else typeDoubt source target e
  | _, _ => []

theorem filter_inputDoubts (before : List (String × Option String)) (target : Node) (e : Edge) :
    (inputDoubts before target e).filter (·.tellsOfTypes) = [] := by
  rw [inputDoubts]
  cases target.operator? with
  | none => rfl
  | some op =>
    rw [List.filter_append, List.append_eq_nil_iff]
    constructor <;> (split <;> rfl)

theorem filter_typeDoubt (source target : Node) (e : Edge) :
    (typeDoubt source target e).filter (·.tellsOfTypes) = typeDoubt source target e := by
  simp only [typeDoubt]
  split <;> rfl

theorem filter_edgeDoubts (before : List (String × Option String)) (edges : List Edge) :
    (g.edgeDoubts before edges).filter (·.tellsOfTypes) = edges.flatMap g.typeClashes := by
  induction edges generalizing before with
  | nil => rfl
  | cons e rest ih =>
    rw [edgeDoubts, List.flatMap_cons]
    cases hsource : g.node? e.source with
    | none =>
      simp only [typeClashes, hsource]
      exact ih before
    | some source =>
      cases htarget : g.node? e.target with
      | none =>
        simp only [typeClashes, hsource, htarget]
        exact ih before
      | some target =>
        simp only [typeClashes, hsource, htarget]
        split
        · exact ih before
        · rw [List.filter_append, List.filter_append, filter_inputDoubts, filter_typeDoubt, ih,
            List.nil_append]

/-- The warnings about types among what a report says are those of the edges, in their order. -/
theorem filter_report_types :
    g.report.filter (·.tellsOfTypes) = g.edges.flatMap g.typeClashes := by
  have hids : [g.idFinding].filter (·.tellsOfTypes) = [] := by
    rw [idFinding]
    split <;> rfl
  have hfaults : (g.edges.filterMap g.edgeFault).filter (·.tellsOfTypes) = [] := by
    refine List.filter_eq_nil_iff.2 fun f hf => ?_
    obtain ⟨e, -, he⟩ := List.mem_filterMap.1 hf
    simp [Finding.tellsOfTypes_of_fault (edgeFault_severity he)]
  have hoperators : g.operatorDoubts.filter (·.tellsOfTypes) = [] := by
    refine List.filter_eq_nil_iff.2 fun f hf => ?_
    obtain ⟨n, -, hn⟩ := List.mem_filterMap.1 hf
    split at hn
    · split at hn
      · simp [← Option.some.inj hn, Finding.tellsOfTypes]
      · cases hn
    · cases hn
  have hloops : g.loopDoubts.filter (·.tellsOfTypes) = [] := by
    refine List.filter_eq_nil_iff.2 fun f hf => ?_
    obtain ⟨n, -, hn⟩ := List.mem_filterMap.1 hf
    split at hn
    · simp [← Option.some.inj hn, Finding.tellsOfTypes]
    · cases hn
  have hcycles : [g.cycleFinding].filter (·.tellsOfTypes) = [] := by
    rw [cycleFinding]
    split <;> rfl
  rw [report, List.filter_append, List.filter_append, List.filter_append, filter_orFine rfl,
    filter_orFine rfl, List.filter_append, List.filter_append, hids, hfaults, hoperators,
    filter_edgeDoubts, hloops, hcycles, List.nil_append, List.nil_append, List.append_nil,
    List.append_nil, List.nil_append]

theorem countP_isTypeWarning :
    (g.report.map Finding.message).countP isTypeWarning =
      (g.edges.flatMap g.typeClashes).length := by
  have htells : isTypeWarning ∘ Finding.message = fun f => f.tellsOfTypes :=
    funext fun f => Finding.isTypeWarning_message
  rw [List.countP_map, htells, List.countP_eq_length_filter, filter_report_types]

theorem countP_isError :
    (g.report.map Finding.message).countP isError =
      (if g.ids.Nodup then 0 else 1) + g.edges.countP (fun e => ¬ g.InPlace e) := by
  rw [List.countP_eq_length_filter, filter_isError_messages, List.length_append, List.length_map,
    List.countP_eq_length_filter]
  split <;> rfl

/-! ### Edges that may be drawn -/

theorem mayConnect_iff : g.mayConnect e = true ↔ ∃ source target,
    g.node? e.source = some source ∧ g.node? e.target = some target ∧ e.source ≠ e.target ∧
      target.takesInput = true ∧
      (source.outputDtype e.sourceHandle).compatible (target.inputDtype e.targetHandle) = true := by
  rw [mayConnect]
  cases hsource : g.node? e.source with
  | none => simp
  | some source =>
    cases htarget : g.node? e.target with
    | none => simp
    | some target => simp [node?_id hsource, node?_id htarget, and_assoc]

theorem typeDoubt_eq_nil_iff {source target : Node} : typeDoubt source target e = [] ↔
    (source.outputDtype e.sourceHandle).compatible (target.inputDtype e.targetHandle) = true := by
  simp only [typeDoubt]
  split <;> simp [*]

theorem length_typeClashes_le : (g.typeClashes e).length ≤ 1 := by
  rw [typeClashes]
  split
  · split
    · exact Nat.zero_le 1
    · simp only [typeDoubt]
      split <;> simp
  · exact Nat.zero_le 1

theorem inPlace_iff_node? : g.InPlace e ↔
    ∃ source target, g.node? e.source = some source ∧ g.node? e.target = some target ∧
      target.takesInput = true := by
  rw [← edgeFault_eq_none_iff_inPlace, edgeFault_eq_none_iff, ← node?_isSome_iff,
    Option.isSome_iff_exists]
  simp only [exists_and_left, ← exists_and_right]

/-- An edge out of place connects no types. -/
theorem typeClashes_eq_nil_of_not_inPlace (h : ¬ g.InPlace e) : g.typeClashes e = [] := by
  rw [typeClashes]
  split
  · next source target hsource htarget =>
    have htakes : target.takesInput = false :=
      Bool.eq_false_iff.2 fun htakes =>
        h (inPlace_iff_node?.2 ⟨source, target, hsource, htarget, htakes⟩)
    simp [htakes]
  · rfl

/-- An edge that carries data from one node to another may be drawn exactly if it is in place and
connects types that go together. -/
theorem mayConnect_iff_inPlace (hscope : g.isScopeEdge e = false) (hends : e.source ≠ e.target) :
    g.mayConnect e = true ↔ g.InPlace e ∧ g.typeClashes e = [] := by
  rw [mayConnect_iff, inPlace_iff_node?]
  constructor
  · rintro ⟨source, target, hsource, htarget, -, htakes, hfit⟩
    refine ⟨⟨source, target, hsource, htarget, htakes⟩, ?_⟩
    simp only [typeClashes, hsource, htarget, htakes, hscope]
    exact typeDoubt_eq_nil_iff.2 hfit
  · rintro ⟨⟨source, target, hsource, htarget, htakes⟩, hfit⟩
    simp only [typeClashes, hsource, htarget, htakes, hscope] at hfit
    exact ⟨source, target, hsource, htarget, hends, htakes, typeDoubt_eq_nil_iff.1 hfit⟩

/-- A graph with one more edge. -/
def draw (g : Graph) (e : Edge) : Graph := { g with edges := g.edges ++ [e] }

/-- A further edge changes nothing for the others. -/
theorem countP_isError_draw (g : Graph) (e : Edge) :
    ((g.draw e).report.map Finding.message).countP isError =
      (g.report.map Finding.message).countP isError + if g.InPlace e then 0 else 1 := by
  have hplace : (g.draw e).InPlace = g.InPlace := rfl
  have hids : (g.draw e).ids = g.ids := rfl
  have hedges : (g.draw e).edges = g.edges ++ [e] := rfl
  simp only [countP_isError, hplace, hids, hedges]
  rw [List.countP_append, List.countP_singleton, Nat.add_assoc]
  simp

theorem countP_isTypeWarning_draw (g : Graph) (e : Edge) :
    ((g.draw e).report.map Finding.message).countP isTypeWarning =
      (g.report.map Finding.message).countP isTypeWarning + (g.typeClashes e).length := by
  have hclashes : (g.draw e).typeClashes = g.typeClashes := rfl
  have hedges : (g.draw e).edges = g.edges ++ [e] := rfl
  rw [countP_isTypeWarning, countP_isTypeWarning, hclashes, hedges, List.flatMap_append,
    List.length_append, List.flatMap_singleton]

/-- **The gate for a new edge agrees with the report.**  Take any graph and any edge that is no
scope edge of a loop and does not lead from a node to itself.  It may be drawn exactly if the report
on the graph with this edge has as many errors, and as many warnings about types, as that on the
graph without it.  An edge that may not be drawn adds one message of the two kinds. -/
theorem mayConnect_iff_report (g : Graph) (e : Edge) (hscope : g.isScopeEdge e = false)
    (hends : e.source ≠ e.target) :
    let before := g.report.map Finding.message
    let after := (g.draw e).report.map Finding.message
    (g.mayConnect e = true ↔ after.countP isError = before.countP isError ∧
      after.countP isTypeWarning = before.countP isTypeWarning) ∧
    (g.mayConnect e = false → after.countP isError + after.countP isTypeWarning =
      before.countP isError + before.countP isTypeWarning + 1) := by
  intro before after
  have herrors : after.countP isError = before.countP isError + if g.InPlace e then 0 else 1 :=
    countP_isError_draw g e
  have hwarnings : after.countP isTypeWarning =
      before.countP isTypeWarning + (g.typeClashes e).length := countP_isTypeWarning_draw g e
  have hgate := mayConnect_iff_inPlace hscope hends
  rw [herrors, hwarnings]
  by_cases hplace : g.InPlace e
  · have hle : (g.typeClashes e).length ≤ 1 := length_typeClashes_le
    rw [if_pos hplace, ← Bool.not_eq_true, hgate, ← List.length_eq_zero_iff]
    simp only [hplace, true_and]
    constructor
    · exact ⟨fun hfit => ⟨rfl, by omega⟩, fun ⟨_, hsame⟩ => by omega⟩
    · intro hclash
      omega
  · rw [if_neg hplace, typeClashes_eq_nil_of_not_inPlace hplace, ← Bool.not_eq_true, hgate]
    simp only [hplace, false_and, List.length_nil]
    exact ⟨⟨False.elim, fun ⟨hsame, _⟩ => by omega⟩, fun _ => by omega⟩

/-- A number and a negation, which takes a truth value. -/
def negation : Graph where
  nodes := [
    ⟨"count", none, .field "count" .number none⟩,
    ⟨"not", none, .operator "not" none []⟩]
  edges := []
  metadata := []

theorem mayConnect_iff_report_negation :
    let e : Edge := ⟨none, "count", none, "not", some "a"⟩
    let messages := (negation.draw e).report.map Finding.message
    negation.isScopeEdge e = false ∧ e.source ≠ e.target ∧ negation.mayConnect e = false ∧
      messages.countP isError + messages.countP isTypeWarning = 1 := by
  intro e messages
  have hscope : negation.isScopeEdge e = false := by decide
  have hends : e.source ≠ e.target := by decide
  have hgate : negation.mayConnect e = false := by decide
  obtain ⟨-, hadded⟩ := mayConnect_iff_report negation e hscope hends
  refine ⟨hscope, hends, hgate, (hadded hgate).trans ?_⟩
  decide +kernel

end Graph

end NodeFlow
