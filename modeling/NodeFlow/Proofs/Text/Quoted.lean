import NodeFlow.Text.Quoted

/-!
# Reading quoted texts back

A reader of literals in single quotes (`readQuoted`), which knows just the escapes of the backslash,
the quote and the two line ends, gives back a quoted text and what follows it
(`readQuoted_flatMap`).  So no other text has the same literal (`quote_inj`).  On the way through a
literal, every quote but the outer two stands behind a backslash that escapes it
(`place_in_quote`).
-/

namespace NodeFlow.Text

/-! ### A reader of literals -/

/-- The character that a letter stands for behind a backslash. -/
def escaped? (letter : Char) : Option Char :=
  match letter with
  | '\\' => some '\\'
  | '\'' => some '\''
  | 'n' => some '\n'
  | 'r' => some '\r'
  | _ => none

/-- The text of a literal from behind its first quote, and what follows the literal.  Line ends are
refused unless they are escaped. -/
def readQuoted : List Char → Option (List Char × List Char)
  | [] => none
  | '\'' :: rest => some ([], rest)
  | '\\' :: letter :: rest =>
    (escaped? letter).bind fun c => (readQuoted rest).map fun (cs, rest) => (c :: cs, rest)
  | c :: rest =>
    if c = '\\' ∨ c = '\n' ∨ c = '\r' then none
    else (readQuoted rest).map fun (cs, rest) => (c :: cs, rest)

theorem readQuoted_quoteChar (c : Char) (cs : List Char) :
    readQuoted (quoteChar c ++ cs) = (readQuoted cs).map fun (text, rest) => (c :: text, rest) := by
  unfold quoteChar
  split
  · rfl
  · rfl
  · rfl
  · rfl
  · next hbackslash hquote hnewline hreturn =>
    have hplain : ¬ (c = '\\' ∨ c = '\n' ∨ c = '\r') :=
      not_or.2 ⟨hbackslash, not_or.2 ⟨hnewline, hreturn⟩⟩
    rw [List.singleton_append, readQuoted, if_neg hplain]
    · exact fun h => hquote h
    · exact fun _ _ h _ => hbackslash h

/-- A quoted text is read back from behind its first quote, with what follows it. -/
theorem readQuoted_flatMap (text rest : List Char) :
    readQuoted (text.flatMap quoteChar ++ '\'' :: rest) = some (text, rest) := by
  induction text with
  | nil => rfl
  | cons c text ih => rw [List.flatMap_cons, List.append_assoc, readQuoted_quoteChar, ih]; rfl

theorem toList_quote (s : String) :
    (quote s).toList = '\'' :: s.toList.flatMap quoteChar ++ ['\''] := by
  rw [quote, String.toList_ofList]

theorem quote_inj {s t : String} : quote s = quote t ↔ s = t := by
  constructor
  · intro h
    have hinner (u : String) : readQuoted (quote u).toList.tail = some (u.toList, []) := by
      rw [toList_quote]
      exact readQuoted_flatMap u.toList []
    have hlists := (hinner s).symm.trans (h ▸ hinner t)
    exact String.toList_inj.1 (Prod.mk.inj (Option.some.inj hlists)).1
  · exact congrArg quote

/-! ### The way through a literal -/

/-- Where a scan stands: outside of literals, inside one, or behind a backslash in one. -/
inductive Place where
  | code
  | text
  | escape
deriving DecidableEq

/-- The place behind a character. -/
def Place.next : Place → Char → Place
  | code, c => if c = '\'' then text else code
  | text, c => if c = '\'' then code else if c = '\\' then escape else text
  | escape, _ => text

theorem place_quoteChar (c : Char) : (quoteChar c).foldl Place.next .text = .text := by
  unfold quoteChar
  split
  · rfl
  · rfl
  · rfl
  · rfl
  · next hbackslash hquote _ _ =>
    rw [List.foldl_cons, List.foldl_nil, Place.next, if_neg hquote, if_neg hbackslash]

theorem place_quoteChar_prefix {c : Char} {first rest : List Char}
    (h : quoteChar c = first ++ rest) : first.foldl Place.next .text ≠ .code := by
  cases first with
  | nil => exact nofun
  | cons d first =>
    have hescape {x : Char} (h : [x] = first ++ rest) :
        first.foldl Place.next .escape ≠ .code := by
      rcases List.singleton_eq_append_iff.1 h with ⟨rfl, -⟩ | ⟨rfl, -⟩
      · exact nofun
      · exact nofun
    unfold quoteChar at h
    split at h
    · obtain ⟨rfl, htail⟩ := List.cons.inj h
      exact hescape htail
    · obtain ⟨rfl, htail⟩ := List.cons.inj h
      exact hescape htail
    · obtain ⟨rfl, htail⟩ := List.cons.inj h
      exact hescape htail
    · obtain ⟨rfl, htail⟩ := List.cons.inj h
      exact hescape htail
    · next hbackslash hquote _ _ =>
      obtain ⟨rfl, htail⟩ := List.cons.inj h
      obtain rfl : first = [] := (List.append_eq_nil_iff.1 htail.symm).1
      rw [List.foldl_cons, List.foldl_nil, Place.next, if_neg hquote, if_neg hbackslash]
      exact nofun

theorem place_flatMap (text : List Char) :
    (text.flatMap quoteChar).foldl Place.next .text = .text := by
  induction text with
  | nil => rfl
  | cons c text ih => rw [List.flatMap_cons, List.foldl_append, place_quoteChar, ih]

/-- A literal does not end before its last character. -/
theorem place_flatMap_prefix {text first rest : List Char}
    (h : text.flatMap quoteChar = first ++ rest) : first.foldl Place.next .text ≠ .code := by
  induction text generalizing first with
  | nil =>
    obtain rfl : first = [] := (List.append_eq_nil_iff.1 h.symm).1
    exact nofun
  | cons c text ih =>
    rw [List.flatMap_cons, List.append_eq_append_iff] at h
    rcases h with ⟨more, rfl, hrest⟩ | ⟨more, hchar, -⟩
    · rw [List.foldl_append, place_quoteChar]
      exact ih hrest
    · exact place_quoteChar_prefix hchar

/-- A quote inside a literal is escaped. -/
theorem place_in_quote {text first rest : List Char}
    (h : text.flatMap quoteChar = first ++ '\'' :: rest) :
    first.foldl Place.next .text = .escape := by
  have hfirst := place_flatMap_prefix h
  have hquote : (first ++ ['\'']).foldl Place.next .text ≠ .code :=
    place_flatMap_prefix (by rw [h, List.append_assoc]; rfl)
  rw [List.foldl_append] at hquote
  cases hplace : first.foldl Place.next .text with
  | code => exact absurd hplace hfirst
  | text =>
    rw [hplace] at hquote
    exact absurd rfl hquote
  | escape => rfl

end NodeFlow.Text
