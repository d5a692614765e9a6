import Mathlib.Data.List.Nodup
import NodeFlow.Value.Path

/-!
# The paths of a record

The leaves of a record are the values in it that are no records, and the empty records.  The paths
that are listed for a record lead to its leaves, to each of them once and depth first
(`leafPaths_lead_back`), as long as no key of the record or of a record in it is empty or has a
point.  Where a value lies in a record (`Lies`) and which way comes first (`Precedes`) are told from
the entries alone, without any path.
-/

namespace NodeFlow

/-! ### Keys joined by points -/

/-- A key that can stand in a path: it is not empty and has no point. -/
def IsStep (key : String) : Prop := key ≠ "" ∧ '.' ∉ key.toList

instance : DecidablePred IsStep := fun key => inferInstanceAs (Decidable (key ≠ "" ∧ _))

/-- The path along some keys. -/
def pathOf (keys : List String) : String := ".".intercalate keys

theorem Text.segments_eq_splitOn (separator : Char) (s : List Char) :
    Text.segments separator s = s.splitOn separator := by
  induction s with
  | nil => rfl
  | cons c rest ih =>
    rw [Text.segments, List.splitOn, List.splitOnP_cons_eq_if_modifyHead, ← List.splitOn, ← ih]
    cases hpieces : Text.segments separator rest with
    | nil => exact absurd hpieces (Text.segments_ne_nil separator rest)
    | cons piece others =>
      by_cases hc : c = separator <;> simp [hc]

/-- The path along some keys is cut into these keys. -/
theorem segments_pathOf {keys : List String} (hne : keys ≠ []) (h : ∀ key ∈ keys, IsStep key) :
    Text.segments '.' (pathOf keys).toList = keys.map String.toList := by
  have hpoint : ".".toList = ['.'] := by decide
  rw [Text.segments_eq_splitOn, pathOf, String.toList_intercalate, hpoint]
  refine List.splitOn_intercalate _ ?_ (by simpa using hne)
  exact List.forall_mem_map.2 fun key hkey => (h key hkey).2

theorem pathOf_injective {keys keys' : List String} (hne : keys ≠ []) (hne' : keys' ≠ [])
    (h : ∀ key ∈ keys, IsStep key) (h' : ∀ key ∈ keys', IsStep key)
    (hpath : pathOf keys = pathOf keys') : keys = keys' := by
  have hsegments := segments_pathOf hne h
  rw [hpath, segments_pathOf hne' h'] at hsegments
  exact (List.map_injective_iff.2 fun _ _ => String.toList_inj.1) hsegments.symm

/-- Joining the first two keys changes no path. -/
theorem pathOf_join (base key : String) (keys : List String) :
    pathOf ((base ++ "." ++ key) :: keys) = pathOf (base :: key :: keys) := by
  cases keys with
  | nil => simp [pathOf, String.intercalate_cons_cons]
  | cons next rest => simp [pathOf, String.intercalate_cons_cons, String.append_assoc]

namespace Value

/-! ### Ways to the leaves -/

/-- The record with values under texts. -/
def ofFields (fields : List (String × Value)) : Value :=
  record (fields.map fun f => (.ofText f.1, f.2))

/-- A value in which the keys of all records, at every level, are different texts that can stand in
paths.  What lies in lists, pairs and sets may be anything. -/
inductive Navigable : Value → Prop where
  | leaf {v : Value} (h : ∀ entries, v ≠ record entries) : Navigable v
  | record {fields : List (String × Value)} (keys : ∀ f ∈ fields, IsStep f.1)
      (distinct : (fields.map Prod.fst).Nodup) (values : ∀ f ∈ fields, Navigable f.2) :
      Navigable (ofFields fields)

/-- A leaf: no record, or an empty one. -/
def IsLeaf (v : Value) : Prop := ∀ entries, v = record entries → entries = []

/-- A value lies in another along some keys, each of which leads from a record to a value in it. -/
inductive Lies : Value → List String → Value → Prop where
  | here (v : Value) : Lies v [] v
  | under {entries : List (Atom × Value)} {key : String} {keys : List String} {v w : Value}
      (hentry : (Atom.ofText key, v) ∈ entries) (hrest : Lies v keys w) :
      Lies (record entries) (key :: keys) w

/-- One way into a value comes before another: the ways part at a record, and the key that the
first takes there comes before that of the other. -/
inductive Precedes : Value → List String → List String → Prop where
  | here {entries : List (Atom × Value)} {key key' : String} {v v' : Value}
      (hentries : [(Atom.ofText key, v), (Atom.ofText key', v')].Sublist entries)
      (keys keys' : List String) : Precedes (record entries) (key :: keys) (key' :: keys')
  | under {entries : List (Atom × Value)} {key : String} {keys keys' : List String} {v : Value}
      (hentry : (Atom.ofText key, v) ∈ entries) (hrest : Precedes v keys keys') :
      Precedes (record entries) (key :: keys) (key :: keys')

mutual

/-- The leaves of a value, a leaf itself included, each with the keys on the way to it. -/
def leavesAt : Value → List (List String × Value)
  | record entries => if entries.isEmpty then [([], record [])] else entryLeaves entries
  | v => [([], v)]

/-- The leaves of a record's entries, each with the keys on the way to it. -/
def entryLeaves : List (Atom × Value) → List (List String × Value)
  | [] => []
  | (k, v) :: rest => (v.leavesAt.map fun l => (k.text :: l.1, l.2)) ++ entryLeaves rest

end

/-- The leaves below a value, each with the keys on the way to it; a value that is no record has
none. -/
def leaves (v : Value) : List (List String × Value) := v.leavesAt.filter (·.1 ≠ [])

variable {v w : Value} {fields : List (String × Value)} {keys keys' : List String}

theorem entryLeaves_fields : entryLeaves (fields.map fun f => (.ofText f.1, f.2)) =
    fields.flatMap fun f => f.2.leavesAt.map fun l => (f.1 :: l.1, l.2) := by
  induction fields with
  | nil => rw [List.map_nil, entryLeaves, List.flatMap_nil]
  | cons f rest ih => rw [List.map_cons, entryLeaves, ih, List.flatMap_cons, Atom.text_ofText]

theorem entryPaths_fields (base : String) :
    entryPaths base (fields.map fun f => (.ofText f.1, f.2)) =
      fields.flatMap fun f => f.2.leafPathsAt (extendPath base (.ofText f.1)) := by
  induction fields with
  | nil => rw [List.map_nil, entryPaths, List.flatMap_nil]
  | cons f rest ih => rw [List.map_cons, entryPaths, ih, List.flatMap_cons]

/-- A value in a record lies under its key. -/
theorem lies_ofFields_iff : (ofFields fields).Lies keys w ↔
    (keys = [] ∧ w = ofFields fields) ∨
      ∃ f ∈ fields, ∃ rest, keys = f.1 :: rest ∧ f.2.Lies rest w := by
  constructor
  · intro h
    rw [ofFields] at h
    cases h with
    | here => exact Or.inl ⟨rfl, rfl⟩
    | @under _ key rest _ _ hentry hrest =>
      obtain ⟨f, hf, hfield⟩ := List.mem_map.1 hentry
      obtain ⟨hkey, rfl⟩ := Prod.mk.inj hfield
      exact Or.inr ⟨f, hf, rest, by rw [Atom.ofText_inj.1 hkey], hrest⟩
  · rintro (⟨rfl, rfl⟩ | ⟨f, hf, rest, rfl, hrest⟩)
    · exact .here _
    · exact .under (List.mem_map_of_mem hf) hrest

theorem not_isLeaf_ofFields (h : fields ≠ []) : ¬ (ofFields fields).IsLeaf :=
  fun hleaf => h (List.map_eq_nil_iff.1 (hleaf _ rfl))

theorem leavesAt_leaf (h : ∀ entries, v ≠ record entries) : v.leavesAt = [([], v)] := by
  cases v with
  | record entries => exact absurd rfl (h entries)
  | atom | list | pair | set => rfl

theorem leavesAt_ofFields (h : fields ≠ []) : (ofFields fields).leavesAt =
    fields.flatMap fun f => f.2.leavesAt.map fun l => (f.1 :: l.1, l.2) := by
  have hentries : (fields.map fun f => (Atom.ofText f.1, f.2)).isEmpty = false := by simpa using h
  rw [ofFields, leavesAt, hentries, entryLeaves_fields]
  rfl

/-- The leaves of a value are what they are called, and all of them. -/
theorem Navigable.mem_leavesAt_iff (h : v.Navigable) :
    (keys, w) ∈ v.leavesAt ↔ v.Lies keys w ∧ w.IsLeaf := by
  induction h generalizing keys w with
  | @leaf v hleaf =>
    rw [leavesAt_leaf hleaf, List.mem_singleton, Prod.mk.injEq]
    constructor
    · rintro ⟨rfl, rfl⟩
      exact ⟨.here _, fun entries hentries => absurd hentries (hleaf entries)⟩
    · rintro ⟨hlies, -⟩
      cases hlies with
      | here => exact ⟨rfl, rfl⟩
      | under => exact absurd rfl (hleaf _)
  | @record fields hkeys hdistinct hvalues ih =>
    rcases eq_or_ne fields [] with rfl | hne
    · rw [lies_ofFields_iff]
      simp only [ofFields, List.map_nil, leavesAt, List.isEmpty_nil, if_true, List.mem_singleton,
        Prod.mk.injEq, List.not_mem_nil, false_and, exists_false, or_false, and_imp, iff_self_and]
      rintro - rfl entries hentries
      exact (record.inj hentries).symm
    · rw [leavesAt_ofFields hne, lies_ofFields_iff, List.mem_flatMap]
      constructor
      · rintro ⟨f, hf, hmem⟩
        obtain ⟨l, hl, hkeys⟩ := List.mem_map.1 hmem
        obtain ⟨rfl, rfl⟩ := Prod.mk.inj hkeys
        obtain ⟨hlies, hleaf⟩ := (ih f hf).1 hl
        exact ⟨Or.inr ⟨f, hf, l.1, rfl, hlies⟩, hleaf⟩
      · rintro ⟨⟨rfl, rfl⟩ | ⟨f, hf, rest, rfl, hlies⟩, hleaf⟩
        · exact absurd hleaf (not_isLeaf_ofFields hne)
        · exact ⟨f, hf, List.mem_map.2 ⟨(rest, w), (ih f hf).2 ⟨hlies, hleaf⟩, rfl⟩⟩

theorem Navigable.mem_leaves_iff (h : v.Navigable) :
    (keys, w) ∈ v.leaves ↔ keys ≠ [] ∧ v.Lies keys w ∧ w.IsLeaf := by
  rw [leaves, List.mem_filter, h.mem_leavesAt_iff, and_comm, decide_eq_true_iff]

/-- The leaves of a value come in the order of the ways to them. -/
theorem Navigable.pairwise_leavesAt (h : v.Navigable) :
    v.leavesAt.Pairwise fun l m => v.Precedes l.1 m.1 := by
  induction h with
  | leaf hleaf =>
    rw [leavesAt_leaf hleaf]
    exact List.pairwise_singleton ..
  | @record fields hkeys hdistinct hvalues ih =>
    rcases eq_or_ne fields [] with rfl | hne
    · exact List.pairwise_singleton ..
    · rw [leavesAt_ofFields hne, List.pairwise_flatMap]
      constructor
      · intro f hf
        rw [List.pairwise_map]
        exact (ih f hf).imp fun hrest => .under (List.mem_map_of_mem hf) hrest
      · rw [List.pairwise_iff_forall_sublist]
        intro f f' hfields l hl m hm
        obtain ⟨l, -, rfl⟩ := List.mem_map.1 hl
        obtain ⟨m, -, rfl⟩ := List.mem_map.1 hm
        have hentries := hfields.map fun f => (Atom.ofText f.1, f.2)
        exact Precedes.here hentries l.1 m.1

theorem Navigable.pairwise_leaves (h : v.Navigable) :
    v.leaves.Pairwise fun l m => v.Precedes l.1 m.1 :=
  h.pairwise_leavesAt.filter _

theorem leaves_ofFields :
    (ofFields fields).leaves =
      fields.flatMap fun f => f.2.leavesAt.map fun l => (f.1 :: l.1, l.2) := by
  rw [leaves]
  rcases eq_or_ne fields [] with rfl | hne
  · rfl
  · rw [leavesAt_ofFields hne]
    refine List.filter_eq_self.2 fun l hl => ?_
    obtain ⟨f, -, hmem⟩ := List.mem_flatMap.1 hl
    obtain ⟨m, -, rfl⟩ := List.mem_map.1 hmem
    simp

/-! ### Paths -/

/-- The paths of a value that lies at a path go on along the ways to its leaves. -/
theorem Navigable.leafPathsAt_eq (h : v.Navigable) {base : String} (hbase : base ≠ "") :
    v.leafPathsAt base = v.leavesAt.map fun l => (pathOf (base :: l.1), Dtype.infer l.2) := by
  induction h generalizing base with
  | @leaf v hleaf =>
    rw [leavesAt_leaf hleaf, List.map_singleton, pathOf, String.intercalate_singleton]
    cases v with
    | record entries => exact absurd rfl (hleaf entries)
    | atom | list | pair | set => rfl
  | @record fields hkeys hdistinct hvalues ih =>
    rcases eq_or_ne fields [] with rfl | hne
    · rfl
    · have hentries : (fields.map fun f => (Atom.ofText f.1, f.2)).isEmpty = false := by
        simpa using hne
      have hfield (f : String × Value) (hf : f ∈ fields) :
          f.2.leafPathsAt (extendPath base (.ofText f.1)) =
            (f.2.leavesAt.map fun l => (f.1 :: l.1, l.2)).map fun l =>
              (pathOf (base :: l.1), Dtype.infer l.2) := by
        have hextend : extendPath base (.ofText f.1) = base ++ "." ++ f.1 := by
          rw [extendPath, String.isEmpty_eq_false_iff.2 hbase, Atom.text_ofText]
          rfl
        rw [hextend, ih f hf (by simp), List.map_map]
        simp only [Function.comp_def, pathOf_join]
      rw [leavesAt_ofFields hne, List.map_flatMap, ← List.flatMap_congr hfield, ofFields,
        leafPathsAt, hentries, ← entryPaths_fields]
      rfl

/-- The listed paths are those along the ways to the leaves. -/
theorem Navigable.leafPaths_eq (h : v.Navigable) :
    v.leafPaths "" = v.leaves.map fun l => (pathOf l.1, Dtype.infer l.2) := by
  cases h with
  | leaf hleaf =>
    rw [leaves, leavesAt_leaf hleaf]
    cases v with
    | record entries => exact absurd rfl (hleaf entries)
    | atom | list | pair | set => rfl
  | @record fields hkeys hdistinct hvalues =>
    have hfield (f : String × Value) (hf : f ∈ fields) :
        f.2.leafPathsAt (extendPath "" (.ofText f.1)) =
          (f.2.leavesAt.map fun l => (f.1 :: l.1, l.2)).map fun l =>
            (pathOf l.1, Dtype.infer l.2) := by
      have hextend : extendPath "" (.ofText f.1) = f.1 := by
        rw [extendPath, Atom.text_ofText]
        rfl
      rw [hextend, (hvalues f hf).leafPathsAt_eq (hkeys f hf).1, List.map_map]
      rfl
    rw [leaves_ofFields, ofFields, leafPaths, entryPaths_fields, List.map_flatMap]
    exact List.flatMap_congr hfield

/-! ### Following a path -/

/-- Among different keys a key finds its own value. -/
theorem child_ofFields (hdistinct : (fields.map Prod.fst).Nodup) {f : String × Value}
    (hf : f ∈ fields) : (ofFields fields).child f.1.toList = f.2 := by
  have hfind : fields.find? (fun g => g.1 == f.1) = some f := by
    refine List.find?_eq_some_iff_append.2 ⟨by simp, ?_⟩
    obtain ⟨before, after, rfl⟩ := List.append_of_mem hf
    refine ⟨before, after, rfl, fun g hg => ?_⟩
    rw [List.map_append, List.nodup_append] at hdistinct
    have hne := hdistinct.2.2 g.1 (List.mem_map_of_mem hg) f.1 (by simp)
    simpa using hne
  rw [ofFields, child, Record.get?, String.ofList_toList, List.find?_map]
  simp only [Function.comp_def, Atom.equals_ofText, hfind, Option.map_some, Option.getD_some]

theorem Navigable.isStep_of_lies (h : v.Navigable) (hlies : v.Lies keys w) :
    ∀ key ∈ keys, IsStep key := by
  induction h generalizing keys with
  | leaf hleaf =>
    cases hlies with
    | here => exact fun key hkey => absurd hkey List.not_mem_nil
    | under => exact absurd rfl (hleaf _)
  | @record fields hkeys hdistinct hvalues ih =>
    rcases lies_ofFields_iff.1 hlies with ⟨rfl, -⟩ | ⟨f, hf, rest, rfl, hrest⟩
    · exact fun key hkey => absurd hkey List.not_mem_nil
    · exact List.forall_mem_cons.2 ⟨hkeys f hf, ih f hf hrest⟩

theorem Navigable.foldl_child (h : v.Navigable) (hlies : v.Lies keys w) :
    (keys.map String.toList).foldl child v = w := by
  induction h generalizing keys with
  | leaf hleaf =>
    cases hlies with
    | here => rfl
    | under => exact absurd rfl (hleaf _)
  | @record fields hkeys hdistinct hvalues ih =>
    rcases lies_ofFields_iff.1 hlies with ⟨rfl, rfl⟩ | ⟨f, hf, rest, rfl, hrest⟩
    · rfl
    · rw [List.map_cons, List.foldl_cons, child_ofFields hdistinct hf, ih f hf hrest]

/-- The path along the way to a value leads to it. -/
theorem Navigable.follow_pathOf (h : v.Navigable) (hne : keys ≠ []) (hlies : v.Lies keys w) :
    v.follow (pathOf keys) = w := by
  rw [follow, segments_pathOf hne (h.isStep_of_lies hlies), h.foldl_child hlies]

/-! ### Different ways -/

theorem Navigable.ne_of_precedes (h : v.Navigable) (hways : v.Precedes keys keys') :
    keys ≠ keys' := by
  induction h generalizing keys keys' with
  | leaf hleaf =>
    cases hways with
    | here | under => exact absurd rfl (hleaf _)
  | @record fields hkeys hdistinct hvalues ih =>
    rw [ofFields] at hways
    cases hways with
    | here hentries rest rest' =>
      have hnodup : (fields.map fun f => Atom.ofText f.1).Nodup := by
        have hmap := hdistinct.map fun _ _ => Atom.ofText_inj.1
        rwa [List.map_map] at hmap
      have hsublist := hentries.map Prod.fst
      rw [List.map_map] at hsublist
      have hpair := List.nodup_cons.1 (hnodup.sublist hsublist)
      exact fun hsame => hpair.1 (by simp [(List.cons.inj hsame).1])
    | under hentry hrest =>
      obtain ⟨f, hf, hfield⟩ := List.mem_map.1 hentry
      obtain ⟨-, rfl⟩ := Prod.mk.inj hfield
      exact fun hsame => ih f hf hrest (List.cons.inj hsame).2

theorem Navigable.nodup_paths (h : v.Navigable) : (v.leaves.map fun l => pathOf l.1).Nodup := by
  rw [List.Nodup, List.pairwise_map]
  refine h.pairwise_leaves.imp_of_mem fun {l m} hl hm hways hpath => ?_
  obtain ⟨hne, hlies, -⟩ := h.mem_leaves_iff.1 hl
  obtain ⟨hne', hlies', -⟩ := h.mem_leaves_iff.1 hm
  exact h.ne_of_precedes hways
    (pathOf_injective hne hne' (h.isStep_of_lies hlies) (h.isStep_of_lies hlies') hpath)

/-- **The paths of a record lead back to its leaves.**  Take a value in which the keys of all
records are different texts, none of them empty or with a point.  Its leaves, each with the keys on
the way to it, are the values that lie below it and are no records or empty ones, and nothing else;
they come depth first, in the order of the keys.  The paths listed for the value are those along
these ways, in this order and no two the same, each with the type that its leaf suggests; and
following such a path gives the leaf. -/
theorem leafPaths_lead_back (h : v.Navigable) :
    (∀ keys w, (keys, w) ∈ v.leaves ↔ keys ≠ [] ∧ v.Lies keys w ∧ w.IsLeaf) ∧
    v.leaves.Pairwise (fun l m => v.Precedes l.1 m.1) ∧
    v.leafPaths "" = v.leaves.map (fun l => (pathOf l.1, Dtype.infer l.2)) ∧
    ((v.leafPaths "").map Prod.fst).Nodup ∧
    (∀ l ∈ v.leaves, v.follow (pathOf l.1) = l.2) ∧
    (∀ p ∈ v.leafPaths "", (v.follow p.1).IsLeaf ∧ Dtype.infer (v.follow p.1) = p.2) := by
  have hfollow (l : List String × Value) (hl : l ∈ v.leaves) : v.follow (pathOf l.1) = l.2 := by
    obtain ⟨hne, hlies, -⟩ := h.mem_leaves_iff.1 hl
    exact h.follow_pathOf hne hlies
  refine ⟨fun keys w => h.mem_leaves_iff, h.pairwise_leaves, h.leafPaths_eq, ?_, hfollow, ?_⟩
  · rw [h.leafPaths_eq, List.map_map]
    exact h.nodup_paths
  · rw [h.leafPaths_eq]
    refine List.forall_mem_map.2 fun l hl => ?_
    rw [hfollow l hl]
    exact ⟨(h.mem_leaves_iff.1 hl).2.2, rfl⟩

/-- An order with a note that is empty, and with a list of lines whose keys would break a path. -/
def order : Value :=
  ofFields [
    ("order", ofFields [
      ("note", ofFields []),
      ("lines", list [ofFields [("unit.price", int 3)]]),
      ("placed", str "2024-05-01")]),
    ("paid", bool true)]

theorem leafPaths_lead_back_order :
    order.Navigable ∧
      order.leafPaths "" = [("order.note", .any), ("order.lines", .list), ("order.placed", .date),
        ("paid", .boolean)] ∧
      ((order.leafPaths "").map Prod.fst).Nodup ∧
      (∀ p ∈ order.leafPaths "", Dtype.infer (order.follow p.1) = p.2) := by
  have hinner : (ofFields [
      ("note", ofFields []),
      ("lines", list [ofFields [("unit.price", int 3)]]),
      ("placed", str "2024-05-01")]).Navigable := by
    refine .record (by decide) (by decide) ?_
    simp only [List.forall_mem_cons, List.not_mem_nil, false_implies, implies_true, and_true]
    exact ⟨.record nofun List.nodup_nil nofun, .leaf nofun, .leaf nofun⟩
  have h : order.Navigable := by
    refine .record (by decide) (by decide) ?_
    simp only [List.forall_mem_cons, List.not_mem_nil, false_implies, implies_true, and_true]
    exact ⟨hinner, .leaf nofun⟩
  obtain ⟨-, -, -, hnodup, -, hback⟩ := leafPaths_lead_back h
  exact ⟨h, by decide +kernel, hnodup, fun p hp => (hback p hp).2⟩

end Value

end NodeFlow
