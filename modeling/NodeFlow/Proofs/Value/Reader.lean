import NodeFlow.Json
import NodeFlow.Proofs.Text.Decimal
import NodeFlow.Proofs.Text.OneLine
import NodeFlow.Proofs.Text.Quoted
import NodeFlow.Proofs.Value.Source

/-!
# Reading literals back

A reader of literals: words, integers with a sign, quoted texts, lists and records.  It takes what is
written of a plain value, one made of nothing but these, and gives the same value back.  Only a value
in which an integer has too many digits is not written at all (`sources_read_back`).
-/

namespace NodeFlow

open Text

namespace Literal

/-! ### The reader -/

/-- The natural number at the head of a text, and the rest.  Only zero begins with a zero. -/
def natural? (s : List Char) : Option (Nat × List Char) :=
  let digits := s.takeWhile Char.isDigit
  if digits = [] ∨ digits.head? = some '0' ∧ digits ≠ ['0'] then none
  else some (Nat.ofDigitChars 10 digits 0, s.dropWhile Char.isDigit)

/-- The integer at the head of a text, with a sign or without, and the rest. -/
def integer? : List Char → Option (Int × List Char)
  | '-' :: s => (natural? s).map fun (n, rest) => (-n, rest)
  | '+' :: s => (natural? s).map fun (n, rest) => (n, rest)
  | s => (natural? s).map fun (n, rest) => (n, rest)

/-- The atom at the head of a text, and the rest. -/
def atom? : List Char → Option (Atom × List Char)
  | '\'' :: s => (readQuoted s).map fun (cs, rest) => (.ofText (String.ofList cs), rest)
  | s =>
    match Json.after? "None".toList s, Json.after? "True".toList s,
      Json.after? "False".toList s with
    | some rest, _, _ => some (.null, rest)
    | _, some rest, _ => some (.bool true, rest)
    | _, _, some rest => some (.bool false, rest)
    | _, _, _ => (integer? s).map fun (n, rest) => (.num (.int n), rest)

mutual

/-- The value at the head of a text, and the rest. -/
def value? : Nat → List Char → Option (Value × List Char)
  | 0, _ => none
  | fuel + 1, s =>
    match s with
    | '[' :: s => (items? fuel (Json.skipGap s)).map fun (items, rest) => (.list items, rest)
    | '\x7b' :: s => (entries? fuel (Json.skipGap s)).map fun (entries, rest) =>
      (.record (Record.ofEntries entries), rest)
    | s => (atom? s).map fun (a, rest) => (.atom a, rest)

/-- The items of a list up to the closing bracket, and the rest. -/
def items? : Nat → List Char → Option (List Value × List Char)
  | 0, _ => none
  | fuel + 1, s =>
    match s with
    | ']' :: rest => some ([], rest)
    | s =>
      (value? fuel s).bind fun (v, rest) =>
        match Json.skipGap rest with
        | ',' :: rest =>
          (items? fuel (Json.skipGap rest)).map fun (items, rest) => (v :: items, rest)
        | ']' :: rest => some ([v], rest)
        | _ => none

/-- The entries of a record up to the closing bracket, and the rest. -/
def entries? : Nat → List Char → Option (List (Atom × Value) × List Char)
  | 0, _ => none
  | fuel + 1, s =>
    match s with
    | '\x7d' :: rest => some ([], rest)
    | s =>
      (atom? s).bind fun (key, rest) =>
        match Json.skipGap rest with
        | ':' :: rest =>
          (value? fuel (Json.skipGap rest)).bind fun (v, rest) =>
            match Json.skipGap rest with
            | ',' :: rest =>
              (entries? fuel (Json.skipGap rest)).map fun (entries, rest) =>
                ((key, v) :: entries, rest)
            | '\x7d' :: rest => some ([(key, v)], rest)
            | _ => none
        | _ => none

end

/-- The value of a whole text.  Every step of the reader goes past a character. -/
def read? (s : String) : Option Value :=
  match value? (s.toList.length + 1) s.toList with
  | some (v, []) => some v
  | _ => none

/-! ### Numbers -/

/-- A text that goes on with no digit. -/
def NoDigit (s : List Char) : Prop := ∀ c ∈ s.head?, c.isDigit = false

theorem natural?_toDigits (n : Nat) {rest : List Char} (hrest : NoDigit rest) :
    natural? (Nat.toDigits 10 n ++ rest) = some (n, rest) := by
  have hnil : rest.takeWhile Char.isDigit = [] ∧ rest.dropWhile Char.isDigit = rest := by
    cases rest with
    | nil => exact ⟨rfl, rfl⟩
    | cons c rest =>
      have hc : c.isDigit = false := hrest c rfl
      exact ⟨by simp [hc], by simp [hc]⟩
  have hdigits := isDigit_toDigits n
  rw [natural?, List.takeWhile_append_of_pos hdigits, List.dropWhile_append_of_pos hdigits,
    hnil.1, hnil.2, List.append_nil]
  have hzero : ¬ ((Nat.toDigits 10 n).head? = some '0' ∧ Nat.toDigits 10 n ≠ ['0']) := by
    intro h
    cases n with
    | zero => exact h.2 (Nat.toDigits_zero 10)
    | succ n => exact head?_toDigits_ne n.succ_pos h.1
  rw [if_neg (not_or.2 ⟨Nat.toDigits_ne_nil, hzero⟩), Nat.ofDigitChars_ten_toDigits]

theorem integer?_of_isDigit {c : Char} (hc : c.isDigit = true) (s : List Char) :
    integer? (c :: s) = (natural? (c :: s)).map fun (n, rest) => (n, rest) := by
  rw [integer?]
  all_goals
    intro _ h
    rw [(List.cons.inj h).1] at hc
    exact absurd hc (by decide)

theorem integer?_toString (n : Int) {rest : List Char} (hrest : NoDigit rest) :
    integer? ((toString n).toList ++ rest) = some (n, rest) := by
  rw [toList_toString_int]
  split
  · next hn =>
    obtain ⟨d, digits, hdigits, hd⟩ := exists_toDigits n.toNat
    rw [hdigits, List.cons_append, integer?_of_isDigit hd, ← List.cons_append, ← hdigits,
      natural?_toDigits _ hrest]
    simp [Int.toNat_of_nonneg hn]
  · next hn =>
    rw [List.cons_append, integer?, natural?_toDigits _ hrest]
    simp only [Option.map_some, Option.some.injEq, Prod.mk.injEq, and_true]
    omega

/-! ### Atoms -/

/-- The atoms that a source can hold: nothing, truth values, integers and texts. -/
inductive PlainAtom : Atom → Prop
  | null : PlainAtom .null
  | bool (b : Bool) : PlainAtom (.bool b)
  | int (n : Int) : PlainAtom (.num (.int n))
  | text (s : String) : PlainAtom (.ofText s)

/-- Whether the source of a plain atom can begin with a character. -/
def begins (c : Char) : Bool := c ∈ ['\'', 'N', 'T', 'F', '-'] || c.isDigit

theorem ne_of_begins {c d : Char} (hc : begins c = true) (hd : begins d = false) : c ≠ d := by
  rintro rfl
  exact Bool.noConfusion (hc.symm.trans hd)

theorem atom?_number {c : Char} {s : List Char} (hc : c = '-' ∨ c.isDigit = true) :
    atom? (c :: s) = (integer? (c :: s)).map fun (n, rest) => (.num (.int n), rest) := by
  have hne {d : Char} (hd : d ≠ '-' ∧ d.isDigit = false) : d ≠ c := by
    rintro rfl
    rcases hc with h | h
    · exact hd.1 h
    · exact Bool.noConfusion (h.symm.trans hd.2)
  have hN : 'N' ≠ c := hne (by decide)
  have hT : 'T' ≠ c := hne (by decide)
  have hF : 'F' ≠ c := hne (by decide)
  rw [atom?]
  · simp [Json.after?, hN, hT, hF]
  · exact fun _ h => hne (by decide) (List.cons.inj h).1.symm

theorem literal_ofText (s : String) : (Atom.ofText s).literal = quote s := by
  unfold Atom.ofText
  split <;> rfl

theorem toList_quote_append (s : String) (rest : List Char) :
    (quote s).toList ++ rest = '\'' :: (s.toList.flatMap quoteChar ++ '\'' :: rest) := by
  rw [toList_quote]
  simp

theorem atom?_literal {a : Atom} (ha : PlainAtom a) {rest : List Char} (hrest : NoDigit rest) :
    atom? (a.literal.toList ++ rest) = some (a, rest) := by
  cases ha with
  | null => rfl
  | bool b => cases b <;> rfl
  | int n =>
    obtain ⟨c, s, hs, hc⟩ := exists_toString n
    show atom? ((toString n).toList ++ rest) = _
    rw [hs, List.cons_append, atom?_number hc, ← List.cons_append, ← hs,
      integer?_toString n hrest]
    rfl
  | text s =>
    rw [literal_ofText, toList_quote_append, atom?, readQuoted_flatMap]
    simp

theorem exists_begins {a : Atom} (ha : PlainAtom a) :
    ∃ c s, a.literal.toList = c :: s ∧ begins c = true := by
  cases ha with
  | null => exact ⟨_, _, rfl, by decide⟩
  | bool b => cases b <;> exact ⟨_, _, rfl, by decide⟩
  | int n =>
    obtain ⟨c, s, hs, hc⟩ := exists_toString n
    refine ⟨c, s, hs, ?_⟩
    rcases hc with rfl | hc
    · decide
    · rw [begins, hc, Bool.or_true]
  | text s =>
    rw [literal_ofText, toList_quote]
    exact ⟨_, _, rfl, by decide⟩

/-! ### Values -/

/-- The values that a source can hold: plain atoms, lists of plain values, and records of plain
values under different texts. -/
inductive PlainValue : Value → Prop
  | atom {a : Atom} (ha : PlainAtom a) : PlainValue (.atom a)
  | list {items : List Value} (h : ∀ v ∈ items, PlainValue v) : PlainValue (.list items)
  | record {entries : List (String × Value)} (hkeys : (entries.map (·.1)).Nodup)
      (h : ∀ entry ∈ entries, PlainValue entry.2) :
      PlainValue (.record (entries.map fun entry => (.ofText entry.1, entry.2)))

/-- A text that begins with neither a gap nor a closing bracket. -/
def Opens (s : List Char) : Prop :=
  ∃ c rest, s = c :: rest ∧ (begins c = true ∨ c = '[' ∨ c = '\x7b')

theorem Opens.append {s : List Char} (h : Opens s) (t : List Char) : Opens (s ++ t) := by
  obtain ⟨c, rest, rfl, hc⟩ := h
  exact ⟨c, rest ++ t, rfl, hc⟩

theorem Opens.ne {s t : List Char} (h : Opens s) {d : Char}
    (hd : begins d = false ∧ d ≠ '[' ∧ d ≠ '\x7b') : s ≠ d :: t := by
  obtain ⟨c, rest, rfl, hc⟩ := h
  intro h
  obtain ⟨rfl, -⟩ := List.cons.inj h
  rcases hc with hc | hc | hc
  · exact ne_of_begins hc hd.1 rfl
  · exact hd.2.1 hc
  · exact hd.2.2 hc

theorem Opens.skipGap {s : List Char} (h : Opens s) : Json.skipGap s = s := by
  cases s with
  | nil => rfl
  | cons c s =>
    have hgap : Json.isGap c = false := by
      refine Bool.eq_false_iff.2 fun hgap => ?_
      simp only [Json.isGap, Bool.or_eq_true, beq_iff_eq] at hgap
      rcases hgap with ((rfl | rfl) | rfl) | rfl <;> exact h.ne (by decide) rfl
    rw [Json.skipGap, List.dropWhile_cons, hgap]
    rfl

theorem opens_literal {v : Value} (hv : PlainValue v) : Opens v.literal.toList := by
  cases hv with
  | atom ha =>
    obtain ⟨c, s, hs, hc⟩ := exists_begins ha
    exact ⟨c, s, hs, .inl hc⟩
  | list =>
    rw [Value.literal, String.toList_append, String.toList_append]
    exact ⟨_, _, rfl, .inr (.inl rfl)⟩
  | record =>
    rw [Value.literal, inBraces, String.toList_append, String.toList_append]
    exact ⟨_, _, rfl, .inr (.inr rfl)⟩

/-- The reader takes the source of a value, whatever follows it. -/
def ReadsBack (v : Value) : Prop :=
  ∀ {fuel : Nat} {rest : List Char}, v.literal.toList.length < fuel → NoDigit rest →
    value? fuel (v.literal.toList ++ rest) = some (v, rest)

theorem noDigit_cons {c : Char} (hc : c.isDigit = false) (s : List Char) : NoDigit (c :: s) := by
  rintro d ⟨⟩
  exact hc

theorem readsBack_atom {a : Atom} (ha : PlainAtom a) : ReadsBack (.atom a) := by
  intro fuel rest hfuel hrest
  obtain ⟨fuel, rfl⟩ := Nat.exists_eq_add_one_of_ne_zero (Nat.ne_zero_of_lt hfuel)
  obtain ⟨c, s, hs, hc⟩ := exists_begins ha
  have hatom := atom?_literal ha hrest
  rw [Value.literal, hs] at *
  rw [List.cons_append, value?, ← List.cons_append, hatom]
  · rfl
  · exact fun _ h => ne_of_begins hc (by decide) (List.cons.inj h).1
  · exact fun _ h => ne_of_begins hc (by decide) (List.cons.inj h).1

/-! ### Lists -/

/-- The sources of the items of a list as they stand between its brackets. -/
def itemsText (items : List Value) : List Char := (", ".intercalate (Value.literalItems items)).toList

theorem itemsText_singleton (v : Value) : itemsText [v] = v.literal.toList := by
  simp [itemsText, Value.literalItems]

theorem itemsText_cons_cons (v w : Value) (items : List Value) :
    itemsText (v :: w :: items) = v.literal.toList ++ ',' :: ' ' :: itemsText (w :: items) := by
  simp [itemsText, Value.literalItems, String.intercalate_cons_cons]

theorem items?_item {v : Value} (hv : Opens v.literal.toList) (ih : ReadsBack v) {fuel : Nat}
    {rest : List Char} (hfuel : v.literal.toList.length < fuel) (hrest : NoDigit rest) :
    items? (fuel + 1) (Json.skipGap (v.literal.toList ++ rest))
      = match Json.skipGap rest with
        | ',' :: rest => (items? fuel (Json.skipGap rest)).map fun (items, rest) =>
          (v :: items, rest)
        | ']' :: rest => some ([v], rest)
        | _ => none := by
  have hopens := hv.append rest
  rw [hopens.skipGap, items?, ih hfuel hrest]
  · rfl
  · exact fun _ => hopens.ne (by decide)

theorem items?_itemsText {items : List Value} (h : ∀ v ∈ items, Opens v.literal.toList)
    (ih : ∀ v ∈ items, ReadsBack v) {fuel : Nat} {rest : List Char}
    (hfuel : (itemsText items).length + 1 < fuel) :
    items? fuel (Json.skipGap (itemsText items ++ ']' :: rest)) = some (items, rest) := by
  induction items generalizing fuel with
  | nil =>
    obtain ⟨fuel, rfl⟩ := Nat.exists_eq_add_one_of_ne_zero (Nat.ne_zero_of_lt hfuel)
    rfl
  | cons v items ihItems =>
    obtain ⟨fuel, rfl⟩ := Nat.exists_eq_add_one_of_ne_zero (Nat.ne_zero_of_lt hfuel)
    obtain ⟨hv, hitems⟩ := List.forall_mem_cons.1 h
    obtain ⟨ihv, ihOthers⟩ := List.forall_mem_cons.1 ih
    -- the bracket follows the last item, and a comma and a gap any other
    cases items with
    | nil =>
      rw [itemsText_singleton] at hfuel ⊢
      rw [items?_item hv ihv (by omega) (noDigit_cons (by decide) rest)]
      rfl
    | cons w items =>
      rw [itemsText_cons_cons] at hfuel ⊢
      simp only [List.length_append, List.length_cons] at hfuel
      have hothers : items? fuel (Json.skipGap (itemsText (w :: items) ++ ']' :: rest)) = _ :=
        ihItems hitems ihOthers (by omega)
      rw [List.append_assoc, List.cons_append, List.cons_append,
        items?_item hv ihv (by omega) (noDigit_cons (by decide) _)]
      show (items? fuel (Json.skipGap (itemsText (w :: items) ++ ']' :: rest))).map _ = _
      rw [hothers]
      rfl

theorem readsBack_list {items : List Value} (h : ∀ v ∈ items, Opens v.literal.toList)
    (ih : ∀ v ∈ items, ReadsBack v) : ReadsBack (.list items) := by
  intro fuel rest hfuel _
  obtain ⟨fuel, rfl⟩ := Nat.exists_eq_add_one_of_ne_zero (Nat.ne_zero_of_lt hfuel)
  have hliteral : (Value.list items).literal.toList = '[' :: (itemsText items ++ [']']) := by
    simp [Value.literal, itemsText]
  rw [hliteral] at hfuel ⊢
  simp only [List.length_append, List.length_cons, List.length_nil] at hfuel
  rw [List.cons_append, List.append_assoc, value?]
  rw [List.singleton_append, items?_itemsText h ih (by omega)]
  rfl

/-! ### Records -/

/-- The sources of the entries of a record as they stand between its brackets. -/
def entriesText (entries : List (Atom × Value)) : List Char :=
  (", ".intercalate (Value.literalEntries entries)).toList

theorem entriesText_singleton (key : Atom) (v : Value) :
    entriesText [(key, v)] = key.literal.toList ++ ':' :: ' ' :: v.literal.toList := by
  simp [entriesText, Value.literalEntries]

theorem entriesText_cons_cons (key : Atom) (v : Value) (entry : Atom × Value)
    (entries : List (Atom × Value)) :
    entriesText ((key, v) :: entry :: entries)
      = key.literal.toList ++ ':' :: ' ' :: (v.literal.toList
        ++ ',' :: ' ' :: entriesText (entry :: entries)) := by
  simp [entriesText, Value.literalEntries, String.intercalate_cons_cons]

theorem entries?_entry {key : Atom} (hkey : PlainAtom key) {v : Value}
    (hv : Opens v.literal.toList) (ih : ReadsBack v) {fuel : Nat} {rest : List Char}
    (hfuel : v.literal.toList.length < fuel) (hrest : NoDigit rest) :
    entries? (fuel + 1) (Json.skipGap
        (key.literal.toList ++ ':' :: ' ' :: (v.literal.toList ++ rest)))
      = match Json.skipGap rest with
        | ',' :: rest => (entries? fuel (Json.skipGap rest)).map fun (entries, rest) =>
          ((key, v) :: entries, rest)
        | '\x7d' :: rest => some ([(key, v)], rest)
        | _ => none := by
  have hopens := (opens_literal (.atom hkey)).append (':' :: ' ' :: (v.literal.toList ++ rest))
  rw [Value.literal] at hopens
  rw [hopens.skipGap, entries?, atom?_literal hkey (noDigit_cons (by decide) _)]
  · show ((value? fuel (Json.skipGap (v.literal.toList ++ rest))).bind _) = _
    rw [(hv.append rest).skipGap, ih hfuel hrest]
    rfl
  · exact fun _ => hopens.ne (by decide)

theorem entries?_entriesText {entries : List (Atom × Value)}
    (hkeys : ∀ entry ∈ entries, PlainAtom entry.1)
    (h : ∀ entry ∈ entries, Opens entry.2.literal.toList)
    (ih : ∀ entry ∈ entries, ReadsBack entry.2) {fuel : Nat} {rest : List Char}
    (hfuel : (entriesText entries).length + 1 < fuel) :
    entries? fuel (Json.skipGap (entriesText entries ++ '\x7d' :: rest))
      = some (entries, rest) := by
  induction entries generalizing fuel with
  | nil =>
    obtain ⟨fuel, rfl⟩ := Nat.exists_eq_add_one_of_ne_zero (Nat.ne_zero_of_lt hfuel)
    rfl
  | cons entry entries ihEntries =>
    obtain ⟨fuel, rfl⟩ := Nat.exists_eq_add_one_of_ne_zero (Nat.ne_zero_of_lt hfuel)
    obtain ⟨key, v⟩ := entry
    obtain ⟨hkey, hkeyOthers⟩ := List.forall_mem_cons.1 hkeys
    obtain ⟨hv, hothers⟩ := List.forall_mem_cons.1 h
    obtain ⟨ihv, ihOthers⟩ := List.forall_mem_cons.1 ih
    cases entries with
    | nil =>
      rw [entriesText_singleton] at hfuel ⊢
      simp only [List.length_append, List.length_cons] at hfuel
      have hlt : v.literal.toList.length < fuel := by omega
      rw [List.append_assoc, List.cons_append, List.cons_append,
        entries?_entry hkey hv ihv hlt (noDigit_cons (by decide) rest)]
      rfl
    | cons entry entries =>
      rw [entriesText_cons_cons] at hfuel ⊢
      simp only [List.length_append, List.length_cons] at hfuel
      have hlt : v.literal.toList.length < fuel := by omega
      have hread : entries? fuel (Json.skipGap
          (entriesText (entry :: entries) ++ '\x7d' :: rest)) = _ :=
        ihEntries hkeyOthers hothers ihOthers (by omega)
      rw [List.append_assoc, List.cons_append, List.cons_append, List.append_assoc,
        List.cons_append, List.cons_append,
        entries?_entry hkey hv ihv hlt (noDigit_cons (by decide) _)]
      show (entries? fuel (Json.skipGap
        (entriesText (entry :: entries) ++ '\x7d' :: rest))).map _ = _
      rw [hread]
      rfl

end Literal

theorem Record.insert_of_forall {α : Type} {record : List (Atom × α)} {key : Atom}
    (h : ∀ entry ∈ record, entry.1.equals key = false) (value : α) :
    Record.insert record key value = record ++ [(key, value)] := by
  induction record with
  | nil => rfl
  | cons entry record ih =>
    obtain ⟨hentry, hrecord⟩ := List.forall_mem_cons.1 h
    rw [Record.insert, hentry, ih hrecord]
    rfl

theorem Record.ofEntries_of_pairwise {α : Type} {entries : List (Atom × α)}
    (h : entries.Pairwise fun e e' => e.1.equals e'.1 = false) :
    Record.ofEntries entries = entries := by
  have hfold (rest record : List (Atom × α))
      (h : (record ++ rest).Pairwise fun e e' => e.1.equals e'.1 = false) :
      rest.foldl (fun record entry => Record.insert record entry.1 entry.2) record
        = record ++ rest := by
    induction rest generalizing record with
    | nil => simp
    | cons entry rest ih =>
      have hnew : ∀ e ∈ record, e.1.equals entry.1 = false :=
        fun e he => (List.pairwise_append.1 h).2.2 e he entry List.mem_cons_self
      rw [List.foldl_cons, Record.insert_of_forall hnew, ih]
      · simp
      · simpa using h
  exact hfold entries [] h

namespace Literal

theorem readsBack_record {entries : List (String × Value)} (hkeys : (entries.map (·.1)).Nodup)
    (h : ∀ entry ∈ entries, Opens entry.2.literal.toList)
    (ih : ∀ entry ∈ entries, ReadsBack entry.2) :
    ReadsBack (.record (entries.map fun entry => (.ofText entry.1, entry.2))) := by
  intro fuel rest hfuel _
  obtain ⟨fuel, rfl⟩ := Nat.exists_eq_add_one_of_ne_zero (Nat.ne_zero_of_lt hfuel)
  have hrecord : Record.ofEntries (entries.map fun entry => (Atom.ofText entry.1, entry.2))
      = entries.map fun entry => (Atom.ofText entry.1, entry.2) := by
    refine Record.ofEntries_of_pairwise (List.pairwise_map.2 ?_)
    refine (List.pairwise_map.1 hkeys).imp fun {e e'} hne => ?_
    rw [Atom.equals_ofText]
    exact beq_false_of_ne hne
  have hliteral (entries : List (Atom × Value)) :
      (Value.record entries).literal.toList = '\x7b' :: (entriesText entries ++ ['\x7d']) := by
    simp [Value.literal, inBraces, entriesText]
  rw [hliteral] at hfuel ⊢
  simp only [List.length_append, List.length_cons, List.length_nil] at hfuel
  rw [List.cons_append, List.append_assoc, value?, List.singleton_append,
    entries?_entriesText _ _ _ (by omega)]
  · show some (Value.record (Record.ofEntries _), rest) = _
    rw [hrecord]
  · simp only [List.forall_mem_map]
    exact fun entry _ => .text entry.1
  · simpa only [List.forall_mem_map] using h
  · simpa only [List.forall_mem_map] using ih

/-! ### The result -/

theorem readsBack {v : Value} (hv : PlainValue v) : ReadsBack v := by
  induction hv with
  | atom ha => exact readsBack_atom ha
  | list h ih => exact readsBack_list (fun v hv => opens_literal (h v hv)) ih
  | record hkeys h ih =>
    exact readsBack_record hkeys (fun entry he => opens_literal (h entry he)) ih

theorem read?_literal {v : Value} (hv : PlainValue v) : read? v.literal = some v := by
  have hread := readsBack hv (Nat.lt_succ_self _) (nofun : NoDigit [])
  rw [List.append_nil] at hread
  rw [read?, hread]

example : read? "['a]" = none ∧ read? "[01]" = none ∧ read? "[1] 2" = none := by decide +kernel

theorem read?_source {v : Value} (hv : PlainValue v) {text : String} (h : v.source = .ok text) :
    read? text = some v := by
  obtain ⟨-, rfl⟩ := Spelling.eq_ok_iff.1 h
  exact read?_literal hv

/-- A plain value is written exactly if no integer in it has too many digits.  What is written of it
is read back as a whole and tells the value.  The literal of a text holds no line end, and a quote
only behind a backslash that escapes it, up to its last character, which nothing escapes. -/
theorem sources_read_back (v w : Value) (hv : PlainValue v) (hw : PlainValue w) (s : String) :
    (v.isWritable = true → ∃ text, v.source = .ok text ∧ read? text = some v) ∧
    (v.isWritable = false → v.source = .error ⟨⟩) ∧
    (v.isWritable = true → v.source = w.source → v = w) ∧
    ∃ inner, (quote s).toList = '\'' :: (inner ++ ['\'']) ∧
      (Value.str s).quoted = .ok (quote s) ∧
      '\n' ∉ inner ∧ '\r' ∉ inner ∧ inner.foldl Place.next .text = .text ∧
      ∀ before after, inner = before ++ '\'' :: after →
        before.foldl Place.next .text = .escape := by
  refine ⟨fun hwritable => ?_, Spelling.eq_error_iff.2, fun hwritable h => ?_, ?_⟩
  · exact ⟨v.literal, Value.source_of_isWritable hwritable, read?_literal hv⟩
  · have hread := read?_literal hv
    rw [read?_source hw (h.symm.trans (Value.source_of_isWritable hwritable))] at hread
    exact (Option.some.inj hread).symm
  · exact ⟨s.toList.flatMap quoteChar, toList_quote s, Value.quoted_of_isWritable rfl,
      lineEnd_notMem_flatMap (.inl rfl) _, lineEnd_notMem_flatMap (.inr rfl) _, place_flatMap _,
      fun _ _ => place_in_quote⟩

/-- Texts that look like other literals, under a key with a quote. -/
def tricky : Value := .record [(.str "it's", .list [.int (-30), .str "'None', \\", .null])]

theorem sources_read_back_tricky :
    PlainValue tricky ∧ tricky.isWritable = true
      ∧ tricky.source = .ok "\x7b'it\\'s': [-30, '\\'None\\', \\\\', None]\x7d"
      ∧ read? "\x7b'it\\'s': [-30, '\\'None\\', \\\\', None]\x7d" = some tricky := by
  have htext : PlainValue (.str "'None', \\") := .atom (.text "'None', \\")
  have hitems : ∀ v ∈ [Value.int (-30), .str "'None', \\", .null], PlainValue v := by
    simp only [List.forall_mem_cons]
    exact ⟨.atom (.int _), htext, .atom .null, nofun⟩
  have hplain : PlainValue tricky := by
    refine @PlainValue.record [("it's", .list [.int (-30), .str "'None', \\", .null])] ?_ ?_
    · decide
    · exact List.forall_mem_singleton.2 (.list hitems)
  have hwritable : tricky.isWritable = true := by decide +kernel
  have hsource : tricky.source = .ok "\x7b'it\\'s': [-30, '\\'None\\', \\\\', None]\x7d" := by
    decide +kernel
  obtain ⟨hwritten, -⟩ := sources_read_back tricky tricky hplain hplain "it's"
  obtain ⟨text, htext, hread⟩ := hwritten hwritable
  obtain rfl := Except.ok.inj (htext.symm.trans hsource)
  exact ⟨hplain, hwritable, hsource, hread⟩

/-- An integer of too many digits is a plain value, and it is not written. -/
theorem vast_has_no_source :
    PlainValue (.int (power 10 4300)) ∧ (Value.int (power 10 4300)).source = .error ⟨⟩ :=
  ⟨.atom (.int _), by decide +kernel⟩

end Literal

end NodeFlow
