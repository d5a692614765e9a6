import NodeFlow.Proofs.Code.Names
import NodeFlow.Proofs.Text.Slug

/-!
# Names of temporaries as identifiers

Whatever the nodes of a graph are called, the name of a temporary is an underscore, lower-case
letters, digits and underscores, another underscore and a number (`text_of_base`).  As it
ends in a digit, it is none of the names that generated code has besides.  In any sequence of
requests, the name of a node is the same each time, and no other node has it
(`temporary_names_clash_free`).
-/

namespace NodeFlow

open Text

/-! ### What names are made of -/

theorem slugText_nodeSlug (n : Node) : SlugText n.slug := by
  have const : SlugText "const" := by decide
  unfold Node.slug
  split
  · exact (slugText_slug _).orElse (slugText_slug _)
  · exact (slugText_slug _).orElse const
  · dsimp only
    split
    · split
      · exact (slugText_slug _).orElse (slugText_slug _)
      · exact slugText_slug _
    · exact (slugText_slug _).orElse (slugText_slug _)
  · exact slugText_slug _

namespace Code

/-- The words that no variable may be called. -/
def keywords : List String := ["False", "None", "True", "and", "as", "assert", "async", "await",
  "break", "class", "continue", "def", "del", "elif", "else", "except", "finally", "for", "from",
  "global", "if", "import", "in", "is", "lambda", "nonlocal", "not", "or", "pass", "raise",
  "return", "try", "while", "with", "yield"]

/-- The names that generated code has besides those of temporaries. -/
def ownNames : List String := ["_", "_i", "_last", "_val", "_set", "_get", "vars", "results", "row",
  "math", "get_nested"]

/-- Whether a variable may have the name: it begins with a letter or an underscore, these and digits
follow, and it is no keyword. -/
def isIdentifier (name : String) : Bool :=
  match name.toList with
  | [] => false
  | first :: rest => (first.isAlpha || first == '_') &&
    rest.all (fun c => c.isAlphanum || c == '_') && !keywords.contains name

variable {g : Graph} {names : Names} {known : List (String × String)} {id name : String}
  {t : TemporaryName}

/-- The part of a node's name between the first underscore and the number. -/
def nameMiddle (g : Graph) (id : String) : String :=
  Text.orElse (((g.node? id).map Node.slug).getD "") "value"

theorem nameBase_eq (g : Graph) (id : String) : nameBase g id = "_" ++ nameMiddle g id := rfl

theorem slugText_nameMiddle (g : Graph) (id : String) : SlugText (nameMiddle g id) := by
  have value : SlugText "value" := by decide
  unfold nameMiddle
  cases g.node? id with
  | none => exact SlugText.orElse (by decide) value
  | some n => exact (slugText_nodeSlug n).orElse value

theorem nameMiddle_ne_empty (g : Graph) (id : String) : nameMiddle g id ≠ "" := by
  unfold nameMiddle
  rw [ne_eq, orElse_eq_empty_iff]
  simp

theorem slugText_toString (n : Nat) : SlugText (toString n) := by
  intro c hc
  rw [toList_toString] at hc
  have hdigit := isDigit_toDigits n c hc
  simp [isSlugChar, hdigit]

theorem SlugText.isAlphanum {s : String} (h : SlugText s) {c : Char} (hc : c ∈ s.toList) :
    (c.isAlphanum || c == '_') = true := by
  rcases h c hc with h | rfl
  · simp only [isSlugChar, Bool.or_eq_true] at h
    show (c.isUpper || c.isLower || c.isDigit || c == '_') = true
    rcases h with h | h <;> simp [h]
  · decide

/-- A name that ends in a digit is no word of generated code. -/
theorem notMem_of_endsInDigit (h : endsInDigit name = true) :
    name ∉ ownNames ∧ name ∉ keywords := by
  have words : ∀ word ∈ ownNames ++ keywords, endsInDigit word = false := by decide
  rw [← not_or, ← List.mem_append]
  intro hmem
  rw [words name hmem] at h
  cases h

/-- A name made from the base for a node is an underscore, a text that is made of the node's slug,
another underscore and a number. -/
theorem text_of_base (h : t.base = nameBase g id) :
    t.text = "_" ++ nameMiddle g id ++ "_" ++ toString t.number := by
  rw [TemporaryName.text, h, nameBase_eq]

theorem slugText_of_base (h : t.base = nameBase g id) : SlugText t.text := by
  rw [text_of_base h]
  have underscore : SlugText "_" := by decide
  exact ((underscore.append (slugText_nameMiddle g id)).append underscore).append
    (slugText_toString t.number)

/-- Behind an underscore any such text is an identifier, as no keyword begins with one. -/
theorem isIdentifier_underscore {s : String} (h : SlugText s) :
    isIdentifier ("_" ++ s) = true := by
  have hkeywords : ∀ word ∈ keywords, word.toList.head? ≠ some '_' := by decide
  have hlist : ("_" ++ s).toList = '_' :: s.toList := by simp
  have hword : "_" ++ s ∉ keywords := by
    intro hmem
    exact hkeywords _ hmem (by rw [hlist]; rfl)
  unfold isIdentifier
  rw [hlist]
  simp only [Bool.and_eq_true, List.all_eq_true]
  exact ⟨⟨by decide, fun c hc => SlugText.isAlphanum h hc⟩, by simpa using hword⟩

theorem isIdentifier_of_base (h : t.base = nameBase g id) : isIdentifier t.text = true := by
  have underscore : SlugText "_" := by decide
  rw [text_of_base h, String.append_assoc, String.append_assoc]
  exact isIdentifier_underscore
    ((slugText_nameMiddle g id).append (underscore.append (slugText_toString t.number)))

/-! ### Sequences of requests -/

/-- Names asked for one after the other are given to the nodes they are asked for. -/
theorem triple_temporaryNames (g : Graph) (ids : List String) (known : List (String × String)) :
    Triple (fun names => Distinct names ∧ Based g names ∧ Given names known)
      (ids.mapM (temporaryName g))
      fun texts names => texts.length = ids.length ∧ Distinct names ∧ Based g names ∧
        Given names (ids.zip texts ++ known) := by
  induction ids generalizing known with
  | nil =>
    rw [List.mapM_nil]
    exact .pure fun _ h => ⟨rfl, h⟩
  | cons id rest ih =>
    rw [List.mapM_cons]
    refine (triple_temporaryName g id known).bind fun name => ?_
    refine (ih ((id, name) :: known)).bind fun texts => .pure fun names h => ?_
    obtain ⟨hlength, distinct, based, given⟩ := h
    refine ⟨by simp [hlength], distinct, based, fun e he => given e ?_⟩
    simp only [List.zip_cons_cons, List.cons_append, List.mem_cons, List.mem_append] at he ⊢
    rcases he with he | he | he <;> simp [he]

/-- **Names of temporaries never clash.**  However often and in whatever order names are asked for,
two of them are the same exactly if they are asked for the same node.  Each is an underscore, lower
case letters, digits and underscores, another underscore and a number; it is an identifier, and none
of the names that generated code has besides. -/
theorem temporary_names_clash_free (g : Graph) (ids : List String) :
    let names := ((ids.mapM (temporaryName g)).run []).1
    names.length = ids.length ∧
    (∀ e ∈ ids.zip names, ∀ e' ∈ ids.zip names, e.2 = e'.2 ↔ e.1 = e'.1) ∧
    ∀ name ∈ names,
      (∃ middle number, name = "_" ++ middle ++ "_" ++ toString (number : Nat) ∧ middle ≠ "" ∧
        ∀ c ∈ middle.toList, isSlugChar c = true ∨ c = '_') ∧
      isIdentifier name = true ∧ name ∉ ownNames := by
  intro names
  obtain ⟨hlength, distinct, based, given⟩ :=
    triple_temporaryNames g ids [] [] ⟨distinct_nil, nofun, nofun⟩
  rw [List.append_nil] at given
  refine ⟨hlength, fun e he e' he' => distinct.eq_iff given he he', fun name hname => ?_⟩
  have hnames : (ids.zip names).map Prod.snd = names := List.map_snd_zip (Nat.le_of_eq hlength)
  rw [← hnames] at hname
  obtain ⟨e, he, rfl⟩ := List.mem_map.1 hname
  obtain ⟨t, ht, htext⟩ := given e he
  have hbase : t.base = nameBase g e.1 := based _ (mem_of_lookup ht)
  rw [← htext]
  exact ⟨⟨_, _, text_of_base hbase, nameMiddle_ne_empty g _, slugText_nameMiddle g _⟩,
    isIdentifier_of_base hbase, (notMem_of_endsInDigit t.endsInDigit_text).1⟩

end Code

end NodeFlow
