import NodeFlow.Graph.Document
import NodeFlow.Load
import NodeFlow.Proofs.Outcome

/-!
# Saved graphs

The document of a graph leaves out every part that is nothing, and the reader fills in a default for
every part that is missing. For each part of a graph the two cancel, so a graph is read back from
its document with all it holds. What stands in a constant, in a result or in the metadata is neither
written nor read part by part, whatever is nested in it.
-/

namespace NodeFlow

namespace Checked

variable {α β : Type}

theorem map_ok {x : Checked α} {a : α} (f : α → β) (h : x = .ok a) : x.map f = .ok (f a) := by
  rw [h]
  rfl

theorem both_ok {x : Checked α} {y : Checked β} {a : α} {b : β} (hx : x = .ok a) (hy : y = .ok b) :
    x.both y = .ok (a, b) :=
  both_eq_ok_iff.2 ⟨hx, hy⟩

/-- Parts are all read where each of them is, wherever it stands. -/
theorem all_mapIdx_ok {read : Nat → β → Checked α} {write : α → β} {l : List α}
    (h : ∀ i, ∀ a ∈ l, read i (write a) = .ok a) :
    all ((l.map write).mapIdx read) = .ok l := by
  induction l generalizing read with
  | nil => rfl
  | cons a rest ih =>
    have others : all ((rest.map write).mapIdx fun i => read (i + 1)) = .ok rest :=
      ih fun i b hb => h (i + 1) b (List.mem_cons_of_mem a hb)
    rw [List.map_cons, List.mapIdx_cons, all, h 0 a List.mem_cons_self, others]
    rfl

end Checked

/-! ### Records of present entries -/

namespace Schema

variable {α : Type} {read : Value → Checked α} {write : α → Value} {default a : α} {part : Value}
  {entries : List (String × Option Value)} {name : String} {others : List String}

/-- The entries that are present, as a record has them. -/
def present (entries : List (String × Option Value)) : List (Atom × Value) :=
  entries.filterMap fun (name, v?) => v?.map fun v => (.str name, v)

theorem model_presentEntries (read : List (Atom × Value) → Checked α) :
    model read (presentEntries entries) = read (present entries) := rfl

theorem get?_present_cons (v? : Option Value) (other : String) :
    Record.get? (present ((other, v?) :: entries)) (.str name) =
      if other = name then v?.or (Record.get? (present entries) (.str name))
      else Record.get? (present entries) (.str name) := by
  cases v? with
  | none =>
    rw [Option.none_or, ite_self]
    rfl
  | some v =>
    have first : present ((other, some v) :: entries) = (.str other, v) :: present entries := rfl
    have key : (Atom.str other).equals (.str name) = (other == name) := rfl
    rw [first, Record.get?, List.find?_cons, key]
    by_cases same : other = name
    · rw [if_pos same, beq_iff_eq.2 same]
      rfl
    · rw [if_neg same, beq_eq_false_iff_ne.2 same]
      rfl

theorem get?_present_absent (h : name ∉ entries.map (·.1)) :
    Record.get? (present entries) (.str name) = none := by
  induction entries with
  | nil => rfl
  | cons e rest ih =>
    rw [List.map_cons, List.mem_cons, not_or] at h
    rw [get?_present_cons, if_neg (Ne.symm h.1), ih h.2]

/-- Each entry of a record stands under its own name alone. -/
theorem get?_present (distinct : (entries.map (·.1)).Nodup) :
    Record.get? (present entries) (.str name) = (entries.lookup name).join := by
  induction entries with
  | nil => rfl
  | cons e rest ih =>
    obtain ⟨other, v?⟩ := e
    obtain ⟨fresh, distinct⟩ := List.nodup_cons.1 distinct
    rw [get?_present_cons, List.lookup_cons]
    by_cases same : other = name
    · subst same
      rw [if_pos rfl, get?_present_absent fresh, Option.or_none, beq_self_eq_true]
      rfl
    · rw [if_neg same, ih distinct, beq_eq_false_iff_ne.2 (Ne.symm same)]

/-- What stands under the first name that a part goes by is the part. -/
theorem find?_present (distinct : (entries.map (·.1)).Nodup)
    (h : entries.lookup name = some (some part)) :
    find? (name :: others) (present entries) = some (name, part) := by
  rw [find?, List.findSome?_cons, get?_present distinct, h]
  rfl

/-- A part that is left out stands under none of its names. -/
theorem find?_present_absent (distinct : (entries.map (·.1)).Nodup)
    (h : ∀ n ∈ others, (entries.lookup n).join = none) :
    find? others (present entries) = none := by
  refine List.findSome?_eq_none_iff.2 fun n hn => ?_
  rw [get?_present distinct, h n hn]
  rfl

theorem required_present (distinct : (entries.map (·.1)).Nodup)
    (h : entries.lookup name = some (some part)) (hr : read part = .ok a) :
    required (name :: others) read (present entries) = .ok a := by
  rw [required, find?_present distinct h]
  exact Checked.under_eq_ok_iff.2 hr

/-- Whether a part says a value: the value is read from it, or it is missing and the value is the
default. -/
def Says (read : Value → Checked α) (default : α) (part? : Option Value) (a : α) : Prop :=
  match part? with
  | some part => read part = .ok a
  | none => a = default

theorem optional_present {part? : Option Value} (distinct : (entries.map (·.1)).Nodup)
    (h : entries.lookup name = some part?) (none : ∀ n ∈ others, entries.lookup n = none)
    (hr : Says read default part? a) :
    optional (name :: others) default read (present entries) = .ok a := by
  cases part? with
  | some part =>
    rw [optional, find?_present distinct h]
    exact Checked.under_eq_ok_iff.2 hr
  | none =>
    obtain rfl : a = default := hr
    have absent : ∀ n ∈ name :: others, (entries.lookup n).join = Option.none := by
      intro n hn
      rcases List.mem_cons.1 hn with rfl | hn
      · rw [h]
        rfl
      · rw [none n hn]
        rfl
    rw [optional, find?_present_absent distinct absent]

/-! ### Parts of one kind -/

theorem dtype_name (t : Dtype) : dtype (.str t.name) = .ok t := by
  rw [dtype, Dtype.ofName?_name]

theorem says_text (s? : Option String) : Says text? none (s?.map .str) s? := by
  cases s? with
  | none => exact rfl
  | some s => exact rfl

theorem says_any (v : Value) : Says any .null v.present? v := by
  rw [Value.present?]
  split
  · assumption
  · exact rfl

theorem list_map {as : List α} (h : ∀ a ∈ as, read (write a) = .ok a) :
    list read (.list (as.map write)) = .ok as := by
  have items : items? (.list (as.map write)) = some (as.map write) := rfl
  rw [list, items]
  exact Checked.all_mapIdx_ok fun i a ha => Checked.under_eq_ok_iff.2 (h a ha)

theorem entry_str {v : Value} (h : read v = .ok a) : entry read (.str name, v) = .ok (name, a) := by
  rw [entry, h]
  rfl

/-- A record under texts is read entry by entry. -/
theorem record_ofNamed {named : List (String × α)} (h : ∀ e ∈ named, read (write e.2) = .ok e.2) :
    record read (.ofNamed (named.map fun e => (e.1, write e.2))) = .ok named := by
  have parts : (named.map fun e => (Atom.str e.1, write e.2)).map (entry read) =
      named.map .ok := by
    rw [List.map_map]
    exact List.map_congr_left fun e he => entry_str (h e he)
  rw [Value.ofNamed, List.map_map]
  -- all keys are texts
  refine (if_pos ?_).trans ((congrArg Checked.all parts).trans (Checked.all_map_ok named))
  simp

theorem record_any (named : List (String × Value)) :
    record any (.ofNamed named) = .ok named := by
  have entries : record any (.ofNamed (named.map fun e => (e.1, id e.2))) = .ok named :=
    record_ofNamed fun _ _ => rfl
  simpa using entries

/-- A document is read where its parts are. -/
theorem document_presentEntries {read : List (Atom × Value) → Checked α}
    (h : read (present entries) = .ok a) : document read (presentEntries entries) = .ok a := by
  refine (if_pos (List.all_eq_true.2 fun e he => ?_)).trans
    (congrArg (Except.mapError DocumentError.issues) h)
  obtain ⟨⟨name, v?⟩, -, he⟩ := List.mem_filterMap.1 he
  obtain ⟨v, -, rfl⟩ := Option.map_eq_some_iff.1 he
  rfl

end Schema

/-! ### Nodes and edges -/

namespace Graph

open Schema

section

variable {entries : List (String × Option Value)}

theorem readField_toDocument (path : String) (dtype : Dtype) (label : Option String) :
    model readField (Content.field path dtype label).toDocument =
      .ok (.field path dtype label) := by
  have distinct : ["path", "dtype", "label"].Nodup := by decide
  rw [Content.toDocument, model_presentEntries, readField]
  refine Checked.map_ok _ (Checked.both_ok (Checked.both_ok ?_ ?_) ?_)
  · exact required_present distinct rfl rfl
  · exact optional_present distinct rfl nofun (dtype_name dtype)
  · exact optional_present distinct rfl nofun (says_text label)

theorem readConst_toDocument (value : Value) (dtype : Dtype) (label : Option String) :
    model readConst (Content.const value dtype label).toDocument =
      .ok (.const value dtype label) := by
  have distinct : ["value", "dtype", "label"].Nodup := by decide
  rw [Content.toDocument, model_presentEntries, readConst]
  refine Checked.map_ok _ (Checked.both_ok (Checked.both_ok ?_ ?_) ?_)
  · exact optional_present distinct rfl nofun (says_any value)
  · exact optional_present distinct rfl nofun (dtype_name dtype)
  · exact optional_present distinct rfl nofun (says_text label)

theorem readOperator_toDocument (op : String) (label : Option String) (inputs : List String) :
    model readOperator (Content.operator op label inputs).toDocument =
      .ok (.operator op label inputs) := by
  have distinct : ["opId", "label", "exprs"].Nodup := by decide
  rw [Content.toDocument, model_presentEntries, readOperator]
  refine Checked.map_ok _ (Checked.both_ok (Checked.both_ok ?_ ?_) ?_)
  · exact required_present distinct rfl rfl
  · exact optional_present distinct rfl nofun (says_text label)
  · exact optional_present distinct rfl nofun (list_map fun _ _ => rfl)

theorem readOutput_toDocument (label : String) (result : Value) :
    model readOutput (Content.output label result).toDocument = .ok (.output label result) := by
  have distinct : ["label", "result"].Nodup := by decide
  rw [Content.toDocument, model_presentEntries, readOutput]
  refine Checked.map_ok _ (Checked.both_ok ?_ ?_)
  · exact optional_present distinct rfl nofun rfl
  · exact optional_present distinct rfl nofun (says_any result)

/-- What a node holds is read back for a node of its kind. -/
theorem readContent_toDocument (n : Node) (distinct : (entries.map (·.1)).Nodup)
    (h : entries.lookup "data" = some (some n.content.toDocument)) :
    readContent n.kind (present entries) = .ok n.content := by
  rw [Node.kind]
  revert h
  cases n.content with
  | field path dtype label =>
    intro h
    exact required_present distinct h (readField_toDocument path dtype label)
  | const value dtype label =>
    intro h
    exact required_present distinct h (readConst_toDocument value dtype label)
  | operator op label inputs =>
    intro h
    exact required_present distinct h (readOperator_toDocument op label inputs)
  | output label result =>
    intro h
    exact optional_present distinct h nofun (readOutput_toDocument label result)

theorem says_position (position : Option (List (String × Float))) :
    Says readPosition none
      (position.map fun p => .ofNamed (p.map fun (axis, x) => (axis, .float x))) position := by
  cases position with
  | none => exact rfl
  | some p =>
    have axes : record double (.ofNamed (p.map fun (axis, x) => (axis, .float x))) = .ok p :=
      record_ofNamed fun _ _ => rfl
    exact Checked.map_ok some axes

theorem kindOfName?_name (kind : NodeKind) : kindOfName? (.str kind.name) = some kind := by
  cases kind <;> decide

/-- A node is read as one of the kind that its record tells. -/
theorem readNode_presentEntries {kind : NodeKind} {n : Node}
    (distinct : (entries.map (·.1)).Nodup)
    (told : entries.lookup "type" = some (some (.str kind.name)))
    (h : readNodeOf kind (present entries) = .ok n) :
    readNode (presentEntries entries) = .ok n := by
  have type : Record.get? (present entries) (.str "type") = some (.str kind.name) := by
    rw [get?_present distinct, told]
    rfl
  have whole : presentEntries entries = .record (present entries) := rfl
  rw [whole, readNode, type]
  simp only [kindOfName?_name]
  exact Checked.under_eq_ok_iff.2 h

theorem readNode_toDocument (n : Node) : readNode n.toDocument = .ok n := by
  have distinct : ["id", "position", "type", "data"].Nodup := by decide
  rw [Node.toDocument]
  refine readNode_presentEntries distinct rfl ?_
  refine Checked.map_ok _ (Checked.both_ok (Checked.both_ok ?_ ?_) ?_)
  · exact required_present distinct rfl rfl
  · exact optional_present distinct rfl nofun (says_position n.position)
  · exact readContent_toDocument n distinct rfl

theorem readEdge_toDocument (e : Edge) : readEdge e.toDocument = .ok e := by
  have distinct : ["id", "source", "sourceHandle", "target", "targetHandle"].Nodup := by decide
  rw [Edge.toDocument, readEdge, model_presentEntries, readEdgeParts]
  refine Checked.map_ok _ (Checked.both_ok (Checked.both_ok (Checked.both_ok
    (Checked.both_ok ?_ ?_) ?_) ?_) ?_)
  · exact optional_present distinct rfl nofun (says_text e.id)
  · exact required_present distinct rfl rfl
  · exact optional_present distinct rfl (by simp) (says_text e.sourceHandle)
  · exact required_present distinct rfl rfl
  · exact optional_present distinct rfl (by simp) (says_text e.targetHandle)

end

/-! ### Graphs -/

/-- **A graph is read back from its document.** -/
theorem read_toDocument (g : Graph) : read g.toDocument = .ok g := by
  have distinct : ["nodes", "edges", "metadata"].Nodup := by decide
  rw [toDocument]
  refine document_presentEntries (Checked.map_ok _ (Checked.both_ok (Checked.both_ok ?_ ?_) ?_))
  · exact optional_present distinct rfl nofun (list_map fun n _ => readNode_toDocument n)
  · exact optional_present distinct rfl nofun (list_map fun e _ => readEdge_toDocument e)
  · exact optional_present distinct rfl nofun (record_any g.metadata)

/-- **A saved graph is loaded as it was.** Where a text that is printed for the document of a graph
is read as that document again, the graph is what is read from its text: nothing of it is missing,
and nothing is added. -/
theorem ofText_toText (g : Graph)
    (h : Document.read (Document.print g.toDocument) = .ok g.toDocument) :
    ofText g.toText = .ok g := by
  have value : valueOfText g.toText = .ok g.toDocument := by
    rw [valueOfText, toText, h]
    rfl
  rw [ofText, value]
  show (read g.toDocument).mapError _ = _
  rw [read_toDocument]
  rfl

/-- A constant that has neither a place nor a label, with nothing inside its value and inside the
metadata. -/
def noted : Graph where
  nodes := [⟨"a", none, .const (.list [.null]) .any none⟩]
  edges := []
  metadata := [("m", .null)]

theorem noted_kept : Document.read (Document.print noted.toDocument) = .ok noted.toDocument ∧
    ofText noted.toText = .ok noted := by
  have printed : Document.read (Document.print noted.toDocument) = .ok noted.toDocument := by
    decide +kernel
  exact ⟨printed, ofText_toText noted printed⟩

end Graph

end NodeFlow
