import NodeFlow.Text.Quoted

/-!
# Texts on one line

A text is on one line if it has no line end in it.  Texts on one line stay so when they are put
together, and a quoted text is always on one line (`oneLine_quote`).  A text that has a line end
therefore never occurs in one that is on one line (`OneLine.not_occurs`).
-/

namespace NodeFlow.Text

variable {s t : String} {texts : List String}

/-! ### Texts put together -/

theorem join_induction {P : String → Prop} (hempty : P "")
    (happend : ∀ {s t}, P s → P t → P (s ++ t)) (h : ∀ t ∈ texts, P t) :
    P (String.join texts) := by
  induction texts with
  | nil => exact hempty
  | cons t rest ih =>
    obtain ⟨ht, hrest⟩ := List.forall_mem_cons.1 h
    rw [String.join_cons]
    exact happend ht (ih hrest)

theorem intercalate_induction {P : String → Prop} (hempty : P "")
    (happend : ∀ {s t}, P s → P t → P (s ++ t)) (hs : P s) (h : ∀ t ∈ texts, P t) :
    P (s.intercalate texts) := by
  induction texts with
  | nil => simpa using hempty
  | cons t rest ih =>
    obtain ⟨ht, hrest⟩ := List.forall_mem_cons.1 h
    cases rest with
    | nil => simpa using ht
    | cons u rest =>
      rw [String.intercalate_cons_cons]
      exact happend (happend ht hs) (ih hrest)

/-! ### Texts without a line end -/

/-- A text without a line end. -/
def OneLine (s : String) : Prop := '\n' ∉ s.toList

instance : DecidablePred OneLine := fun s => inferInstanceAs (Decidable ('\n' ∉ s.toList))

theorem oneLine_ofList {cs : List Char} : OneLine (String.ofList cs) ↔ '\n' ∉ cs := by
  rw [OneLine, String.toList_ofList]

theorem oneLine_append : OneLine (s ++ t) ↔ OneLine s ∧ OneLine t := by
  simp [OneLine]

theorem OneLine.append (hs : OneLine s) (ht : OneLine t) : OneLine (s ++ t) :=
  oneLine_append.2 ⟨hs, ht⟩

theorem OneLine.join (h : ∀ t ∈ texts, OneLine t) : OneLine (String.join texts) :=
  join_induction (by decide) OneLine.append h

theorem OneLine.intercalate (hs : OneLine s) (h : ∀ t ∈ texts, OneLine t) :
    OneLine (s.intercalate texts) :=
  intercalate_induction (by decide) OneLine.append hs h

/-! ### Quoted texts -/

theorem lineEnd_notMem_quoteChar {d : Char} (hd : d = '\n' ∨ d = '\r') (c : Char) :
    d ∉ quoteChar c := by
  unfold quoteChar
  rcases hd with rfl | rfl
  · split <;> simp_all [eq_comm]
  · split <;> simp_all [eq_comm]

theorem lineEnd_notMem_flatMap {d : Char} (hd : d = '\n' ∨ d = '\r') (text : List Char) :
    d ∉ text.flatMap quoteChar := by
  intro h
  obtain ⟨c, -, hc⟩ := List.mem_flatMap.1 h
  exact lineEnd_notMem_quoteChar hd c hc

theorem oneLine_quote (s : String) : OneLine (quote s) := by
  rw [quote, oneLine_ofList]
  have hinner := lineEnd_notMem_flatMap (.inl rfl) s.toList
  simp [hinner]

/-! ### Texts inside texts -/

/-- `Occurs s t`: the text `s` stands somewhere in the text `t`. -/
def Occurs (s t : String) : Prop := s.toList <:+: t.toList

instance : DecidableRel Occurs := fun s t => inferInstanceAs (Decidable (s.toList <:+: t.toList))

theorem Occurs.refl (s : String) : Occurs s s := List.infix_rfl

theorem Occurs.trans {u : String} (h : Occurs s t) (h' : Occurs t u) : Occurs s u :=
  List.IsInfix.trans h h'

theorem occurs_join (h : t ∈ texts) : Occurs t (String.join texts) := by
  rw [Occurs, String.toList_join, List.flatMap_def]
  exact List.infix_of_mem_flatten (List.mem_map_of_mem h)

theorem OneLine.not_occurs (ht : OneLine t) (hs : ¬ OneLine s) : ¬ Occurs s t :=
  fun h => hs fun hmem => ht (h.subset hmem)

end NodeFlow.Text
