import NodeFlow.Proofs.Number.Quantity
import NodeFlow.Proofs.Sequence.Distinct
import NodeFlow.Value.Equality

/-!
# Equality of values

Two atoms are equal exactly if they have the same sense (`Atom.equals_iff`), so equality of atoms is
symmetric and transitive, and only no number differs from itself.  Records are equal if they have
the same keys and equal values under equal keys (`Value.equals_record_iff`).  From both follows that
equality is an equivalence of the values without no number in them.  Strict equality is equality of
values of which both or none are truth values (`Value.strictEquals_iff`), so it is an equivalence
too (`Value.isLikeness_strictEquals`).
-/

namespace NodeFlow

/-! ### The sense of atoms -/

theorem Moment.order?_eq_iff (t u : Moment) : t.order? u = some .eq ↔
    t.offset.isSome = u.offset.isSome ∧ t.instant = u.instant := by
  unfold order? instant
  cases t.offset <;> cases u.offset <;> simp

/-- What an atom says: two atoms that say the same are equal. -/
inductive Sense where
  | nothing
  | quantity (q : Quantity)
  | text (isBroken : Bool) (s : String)
  | bytes (bs : List UInt8)
  | date (d : Date)
  | moment (isTied : Bool) (instant : Int)

namespace Atom

variable {a b c : Atom}

/-- The sense of an atom: truth values say a number. -/
def sense? : Atom → Option Sense
  | null => some .nothing
  | bool b => some (.quantity (.rational (if b then 1 else 0)))
  | num x => x.quantity?.map .quantity
  | str s => some (.text false s)
  | broken s => some (.text true s)
  | bytes bs => some (.bytes bs)
  | date d => some (.date d)
  | moment t => some (.moment t.offset.isSome t.instant)

theorem sense?_of_numeric? {x : Number} (h : a.numeric? = some x) :
    a.sense? = x.quantity?.map .quantity := by
  cases a with
  | bool b =>
    obtain rfl := Option.some.inj h
    cases b <;> simp [sense?, Number.quantity?]
  | num y =>
    obtain rfl := Option.some.inj h
    rfl
  | _ => cases h

theorem equals_of_numeric? {x y : Number} (ha : a.numeric? = some x) (hb : b.numeric? = some y) :
    a.equals b = x.equals y := by
  simp only [equals, ha, hb]

theorem equals_iff : a.equals b = true ↔ ∃ s, a.sense? = some s ∧ b.sense? = some s := by
  cases ha : a.numeric? with
  | some x =>
    cases hb : b.numeric? with
    | some y =>
      rw [equals_of_numeric? ha hb, Number.equals_iff, sense?_of_numeric? ha,
        sense?_of_numeric? hb]
      simp
    | none =>
      have : a.equals b = false := by simp [equals, ha, hb]
      rw [this, sense?_of_numeric? ha]
      cases b <;> simp [sense?] <;> cases hb
  | none =>
    cases hb : b.numeric? with
    | some y =>
      have : a.equals b = false := by simp [equals, ha, hb]
      rw [this, sense?_of_numeric? hb]
      cases a <;> simp [sense?] <;> cases ha
    | none =>
      have hcomm : (∃ s, a.sense? = some s ∧ b.sense? = some s) ↔
          ∃ s, b.sense? = some s ∧ a.sense? = some s := exists_congr fun _ => and_comm
      unfold equals
      rw [hcomm, ha, hb]
      cases a <;> cases b <;> simp [sense?, numeric?, Moment.order?_eq_iff] at ha hb ⊢

theorem equals_symm (h : a.equals b = true) : b.equals a = true := by
  rw [equals_iff] at h ⊢
  exact h.imp fun _ => And.symm

theorem equals_trans (hab : a.equals b = true) (hbc : b.equals c = true) : a.equals c = true := by
  rw [equals_iff] at hab hbc ⊢
  obtain ⟨s, ha, hb⟩ := hab
  obtain ⟨t, hb', hc⟩ := hbc
  obtain rfl : s = t := Option.some.inj (hb.symm.trans hb')
  exact ⟨s, ha, hc⟩

/-- Every atom but no number equals itself. -/
theorem equals_self (h : a ≠ .num .nan) : a.equals a = true := by
  have hsense : a.sense? ≠ none := by
    cases a with
    | num x =>
      rw [sense?, Ne, Option.map_eq_none_iff, Number.quantity?_eq_none_iff]
      simpa using h
    | _ => exact Option.some_ne_none _
  obtain ⟨s, hs⟩ := Option.ne_none_iff_exists'.1 hsense
  exact equals_iff.2 ⟨s, hs, hs⟩

/-! ### Sets of atoms -/

variable {as bs : List Atom}

/-- Different atoms each of which equals one of a list are no more than the list has. -/
theorem length_le_of_forall_equals (distinct : as.Pairwise fun a a' => a.equals a' = false)
    (h : ∀ a ∈ as, ∃ b ∈ bs, a.equals b = true) : as.length ≤ bs.length ∧
      (bs.length ≤ as.length → ∀ b ∈ bs, ∃ a ∈ as, b.equals a = true) := by
  induction as generalizing bs with
  | nil =>
    refine ⟨Nat.zero_le _, fun hle b hb => ?_⟩
    rw [List.length_nil, Nat.le_zero, List.length_eq_zero_iff] at hle
    simp [hle] at hb
  | cons a as ih =>
    obtain ⟨hnew, hdistinct⟩ := List.pairwise_cons.1 distinct
    obtain ⟨⟨b, hb, hab⟩, hrest⟩ := List.forall_mem_cons.1 h
    -- The other atoms equal others of the list than the first does.
    have hother (a' : Atom) (ha' : a' ∈ as) : ∃ b' ∈ bs.erase b, a'.equals b' = true := by
      obtain ⟨b', hb', hequal⟩ := hrest a' ha'
      have hne : b' ≠ b := by
        rintro rfl
        have := equals_trans hab (equals_symm hequal)
        simp [hnew a' ha'] at this
      exact ⟨b', (List.mem_erase_of_ne hne).2 hb', hequal⟩
    have hlength := List.length_erase_add_one hb
    obtain ⟨hle, hcover⟩ := ih hdistinct hother
    rw [List.length_cons]
    refine ⟨by omega, fun hge b' hb' => ?_⟩
    by_cases hsame : b' = b
    · subst hsame
      exact ⟨a, List.mem_cons_self, equals_symm hab⟩
    · obtain ⟨a', ha', hequal⟩ := hcover (by omega) b' ((List.mem_erase_of_ne hsame).2 hb')
      exact ⟨a', List.mem_cons_of_mem a ha', hequal⟩

theorem subset_iff : Value.subset as bs = true ↔ ∀ a ∈ as, ∃ b ∈ bs, a.equals b = true := by
  simp [Value.subset]

end Atom

/-! ### Keys -/

namespace Record

variable {α : Type} {xs ys : List (Atom × α)} {key : Atom} {value : α}

/-- No two keys of a record are equal. -/
def HasOwnKeys (entries : List (Atom × α)) : Prop :=
  (entries.map Prod.fst).Pairwise fun a b => a.equals b = false

/-- Two records have the same keys: each key of one equals a key of the other. -/
def SameKeys (xs ys : List (Atom × α)) : Prop :=
  (∀ e ∈ xs, ∃ e' ∈ ys, e.1.equals e'.1 = true) ∧ ∀ e' ∈ ys, ∃ e ∈ xs, e'.1.equals e.1 = true

theorem HasOwnKeys.eq_of_equals (h : HasOwnKeys xs) {e e' : Atom × α} (he : e ∈ xs) (he' : e' ∈ xs)
    (hkeys : e.1.equals e'.1 = true) : e = e' := by
  induction xs with
  | nil => exact absurd he List.not_mem_nil
  | cons first xs ih =>
    obtain ⟨hfirst, hrest⟩ := List.pairwise_cons.1 h
    have hnot {entry : Atom × α} (hentry : entry ∈ xs) : first.1.equals entry.1 = false :=
      hfirst entry.1 (List.mem_map_of_mem hentry)
    rcases List.mem_cons.1 he with heq | hin <;> rcases List.mem_cons.1 he' with heq' | hin'
    · rw [heq, heq']
    · simp [heq, hnot hin'] at hkeys
    · have := Atom.equals_symm hkeys
      simp [heq', hnot hin] at this
    · exact ih hrest hin hin'

theorem get?_eq_some_iff (h : HasOwnKeys xs) :
    get? xs key = some value ↔ ∃ e ∈ xs, e.1.equals key = true ∧ e.2 = value := by
  unfold get?
  rw [Option.map_eq_some_iff]
  constructor
  · rintro ⟨e, he, rfl⟩
    have hkey : e.1.equals key = true := by simpa using List.find?_some he
    exact ⟨e, List.mem_of_find?_eq_some he, hkey, rfl⟩
  · rintro ⟨e, he, hkey, rfl⟩
    obtain ⟨first, hfirst⟩ := Option.isSome_iff_exists.1
      (List.find?_isSome (p := fun e : Atom × α => e.1.equals key) |>.2 ⟨e, he, hkey⟩)
    have hkey' : first.1.equals key = true := by simpa using List.find?_some hfirst
    have hequal := Atom.equals_trans hkey' (Atom.equals_symm hkey)
    obtain rfl := h.eq_of_equals (List.mem_of_find?_eq_some hfirst) he hequal
    exact ⟨first, hfirst, rfl⟩

theorem SameKeys.symm (h : SameKeys xs ys) : SameKeys ys xs := And.symm h

theorem SameKeys.trans {zs : List (Atom × α)} (h : SameKeys xs ys) (h' : SameKeys ys zs) :
    SameKeys xs zs := by
  have hchain {as bs cs : List (Atom × α)} (hab : ∀ e ∈ as, ∃ f ∈ bs, e.1.equals f.1 = true)
      (hbc : ∀ f ∈ bs, ∃ g ∈ cs, f.1.equals g.1 = true) :
      ∀ e ∈ as, ∃ g ∈ cs, e.1.equals g.1 = true := by
    intro e he
    obtain ⟨f, hf, hkey⟩ := hab e he
    obtain ⟨g, hg, hkey'⟩ := hbc f hf
    exact ⟨g, hg, Atom.equals_trans hkey hkey'⟩
  exact ⟨hchain h.1 h'.1, hchain h'.2 h.2⟩

/-- Records with the keys of one in the other have the same keys if they are equally long. -/
theorem sameKeys_iff (hx : HasOwnKeys xs) (hy : HasOwnKeys ys) : SameKeys xs ys ↔
    xs.length = ys.length ∧ ∀ e ∈ xs, ∃ e' ∈ ys, e.1.equals e'.1 = true := by
  have hcover {zs ws : List (Atom × α)} (hz : HasOwnKeys zs)
      (h : ∀ e ∈ zs, ∃ e' ∈ ws, e.1.equals e'.1 = true) : zs.length ≤ ws.length ∧
        (ws.length ≤ zs.length → ∀ e' ∈ ws, ∃ e ∈ zs, e'.1.equals e.1 = true) := by
    have hkeys : ∀ a ∈ zs.map Prod.fst, ∃ b ∈ ws.map Prod.fst, a.equals b = true := by
      simpa using h
    simpa using Atom.length_le_of_forall_equals hz hkeys
  constructor
  · rintro ⟨hxy, hyx⟩
    exact ⟨le_antisymm (hcover hx hxy).1 (hcover hy hyx).1, hxy⟩
  · rintro ⟨hlength, hxy⟩
    exact ⟨hxy, (hcover hx hxy).2 hlength.ge⟩

end Record

namespace Value

variable {v w : Value} {xs ys : List Value} {as bs : List Atom} {es fs : List (Atom × Value)}

/-! ### Equality part by part -/

theorem equalItems_iff :
    equalItems xs ys = true ↔ List.Forall₂ (fun v w => v.equals w = true) xs ys := by
  induction xs generalizing ys with
  | nil => cases ys <;> simp [equalItems]
  | cons v xs ih => cases ys <;> simp [equalItems, ih]

theorem equals_list_iff :
    (list xs).equals (list ys) = true ↔ List.Forall₂ (fun v w => v.equals w = true) xs ys := by
  rw [equals, equalItems_iff]

theorem equals_set_iff : (set as).equals (set bs) = true ↔
    as.length = bs.length ∧ ∀ a ∈ as, ∃ b ∈ bs, a.equals b = true := by
  rw [equals, Bool.and_eq_true, beq_iff_eq, Atom.subset_iff]

theorem equalEntries_iff : equalEntries es fs = true ↔
    ∀ e ∈ es, ∃ w, Record.get? fs e.1 = some w ∧ e.2.equals w = true := by
  induction es with
  | nil => simp [equalEntries]
  | cons entry es ih =>
    rw [equalEntries, Bool.and_eq_true, ih, List.forall_mem_cons]
    refine and_congr_left fun _ => ?_
    cases Record.get? fs entry.1 <;> simp

/-- Records are equal if they have the same keys, and equal values under equal keys. -/
theorem equals_record_iff (hes : Record.HasOwnKeys es) (hfs : Record.HasOwnKeys fs) :
    (record es).equals (record fs) = true ↔ Record.SameKeys es fs ∧
      ∀ e ∈ es, ∀ f ∈ fs, e.1.equals f.1 = true → e.2.equals f.2 = true := by
  rw [equals, Bool.and_eq_true, beq_iff_eq, equalEntries_iff, Record.sameKeys_iff hes hfs, and_assoc]
  refine and_congr_right fun _ => ⟨fun h => ⟨fun e he => ?_, fun e he f hf hkey => ?_⟩, ?_⟩
  · obtain ⟨w, hget, _⟩ := h e he
    obtain ⟨f, hf, hkey, _⟩ := (Record.get?_eq_some_iff hfs).1 hget
    exact ⟨f, hf, Atom.equals_symm hkey⟩
  · obtain ⟨w, hget, hvalue⟩ := h e he
    have hget' := (Record.get?_eq_some_iff hfs).2 ⟨f, hf, Atom.equals_symm hkey, rfl⟩
    rw [hget] at hget'
    rwa [Option.some.inj hget'] at hvalue
  · rintro ⟨hkeys, hvalues⟩ e he
    obtain ⟨f, hf, hkey⟩ := hkeys e he
    have hget := (Record.get?_eq_some_iff hfs).2 ⟨f, hf, Atom.equals_symm hkey, rfl⟩
    exact ⟨f.2, hget, hvalues e he f hf hkey⟩

/-! ### Equality is an equivalence -/

/-- The values whose atoms have a property and whose sets and records have no member and no key
twice. -/
inductive Over (P : Atom → Prop) : Value → Prop
  | atom {a : Atom} (h : P a) : Over P (atom a)
  | list {items : List Value} (h : ∀ v ∈ items, Over P v) : Over P (list items)
  | pair {v w : Value} (hv : Over P v) (hw : Over P w) : Over P (pair v w)
  | set {members : List Atom} (h : ∀ a ∈ members, P a)
    (distinct : members.Pairwise fun a b => a.equals b = false) : Over P (set members)
  | record {entries : List (Atom × Value)} (hkeys : ∀ e ∈ entries, P e.1)
    (hvalues : ∀ e ∈ entries, Over P e.2) (distinct : Record.HasOwnKeys entries) :
    Over P (record entries)

theorem Over.mono {P Q : Atom → Prop} (h : v.Over P) (hPQ : ∀ a, P a → Q a) : v.Over Q := by
  induction h with
  | atom h => exact .atom (hPQ _ h)
  | list _ ih => exact .list ih
  | pair _ _ ihv ihw => exact .pair ihv ihw
  | set h distinct => exact .set (fun a ha => hPQ a (h a ha)) distinct
  | record hkeys _ distinct ih => exact .record (fun e he => hPQ _ (hkeys e he)) ih distinct

/-- The values that hold every key and member once. -/
abbrev IsTidy : Value → Prop := Over fun _ => True

/-- The tidy values without no number among their atoms. -/
abbrev IsProper : Value → Prop := Over fun a => a ≠ .num .nan

theorem IsProper.isTidy (h : v.IsProper) : v.IsTidy := h.mono fun _ _ => trivial

theorem equals_self (h : v.IsProper) : v.equals v = true := by
  induction h with
  | atom h => rw [equals, Atom.equals_self h]
  | list _ ih => exact equals_list_iff.2 (List.forall₂_same.2 ih)
  | pair _ _ ihv ihw => rw [equals, ihv, ihw, Bool.and_self]
  | set h _ => exact equals_set_iff.2 ⟨rfl, fun a ha => ⟨a, ha, Atom.equals_self (h a ha)⟩⟩
  | record hkeys _ distinct ih =>
    have hsame (e) (he) := Atom.equals_self (hkeys e he)
    refine (equals_record_iff distinct distinct).2
      ⟨⟨fun e he => ⟨e, he, hsame e he⟩, fun e he => ⟨e, he, hsame e he⟩⟩, fun e he f hf hkey => ?_⟩
    obtain rfl := distinct.eq_of_equals he hf hkey
    exact ih e he

theorem equals_symm (hv : v.IsTidy) (hw : w.IsTidy) (h : v.equals w = true) :
    w.equals v = true := by
  induction hv generalizing w with
  | atom _ => cases hw with
    | atom _ =>
      rw [equals] at h ⊢
      exact Atom.equals_symm h
    | _ => simp [equals] at h
  | list _ ih => cases hw with
    | list hitems =>
      rw [equals_list_iff, List.forall₂_iff_get] at h ⊢
      exact ⟨h.1.symm, fun i hi hi' =>
        ih _ (List.get_mem _ _) (hitems _ (List.get_mem _ _)) (h.2 i hi' hi)⟩
    | _ => simp [equals] at h
  | pair _ _ ihv ihw => cases hw with
    | pair hfirst hsecond =>
      rw [equals, Bool.and_eq_true] at h ⊢
      exact ⟨ihv hfirst h.1, ihw hsecond h.2⟩
    | _ => simp [equals] at h
  | set _ distinct => cases hw with
    | set _ _ =>
      rw [equals_set_iff] at h ⊢
      exact ⟨h.1.symm, (Atom.length_le_of_forall_equals distinct h.2).2 h.1.ge⟩
    | _ => simp [equals] at h
  | record _ _ distinct ih => cases hw with
    | record _ hvalues distinct' =>
      rw [equals_record_iff distinct distinct'] at h
      rw [equals_record_iff distinct' distinct]
      exact ⟨h.1.symm, fun f hf e he hkey =>
        ih e he (hvalues f hf) (h.2 e he f hf (Atom.equals_symm hkey))⟩
    | _ => simp [equals] at h

theorem equals_trans {u : Value} (hv : v.IsTidy) (hw : w.IsTidy) (hu : u.IsTidy)
    (hvw : v.equals w = true) (hwu : w.equals u = true) : v.equals u = true := by
  induction hv generalizing w u with
  | atom _ => cases hw with
    | atom _ => cases hu with
      | atom _ =>
        rw [equals] at hvw hwu ⊢
        exact Atom.equals_trans hvw hwu
      | _ => simp [equals] at hwu
    | _ => simp [equals] at hvw
  | list _ ih => cases hw with
    | list hws => cases hu with
      | list hus =>
        rw [equals_list_iff, List.forall₂_iff_get] at hvw hwu ⊢
        refine ⟨hvw.1.trans hwu.1, fun i hi hi'' => ?_⟩
        have hi' := hvw.1 ▸ hi
        exact ih _ (List.get_mem _ _) (hws _ (List.get_mem _ _)) (hus _ (List.get_mem _ _))
          (hvw.2 i hi hi') (hwu.2 i hi' hi'')
      | _ => simp [equals] at hwu
    | _ => simp [equals] at hvw
  | pair _ _ ihv ihw => cases hw with
    | pair hw hw' => cases hu with
      | pair hu hu' =>
        rw [equals, Bool.and_eq_true] at hvw hwu ⊢
        exact ⟨ihv hw hu hvw.1 hwu.1, ihw hw' hu' hvw.2 hwu.2⟩
      | _ => simp [equals] at hwu
    | _ => simp [equals] at hvw
  | set _ _ => cases hw with
    | set _ _ => cases hu with
      | set _ _ =>
        rw [equals_set_iff] at hvw hwu ⊢
        refine ⟨hvw.1.trans hwu.1, fun a ha => ?_⟩
        obtain ⟨b, hb, hab⟩ := hvw.2 a ha
        obtain ⟨c, hc, hbc⟩ := hwu.2 b hb
        exact ⟨c, hc, Atom.equals_trans hab hbc⟩
      | _ => simp [equals] at hwu
    | _ => simp [equals] at hvw
  | record _ _ distinct ih => cases hw with
    | record _ hws distinct' => cases hu with
      | record _ hus distinct'' =>
        rw [equals_record_iff distinct distinct'] at hvw
        rw [equals_record_iff distinct' distinct''] at hwu
        rw [equals_record_iff distinct distinct'']
        refine ⟨hvw.1.trans hwu.1, fun e he g hg hkey => ?_⟩
        -- The key of the entries on both sides is also one of the record between.
        obtain ⟨f, hf, hkey'⟩ := hvw.1.1 e he
        exact ih e he (hws f hf) (hus g hg) (hvw.2 e he f hf hkey')
          (hwu.2 f hf g hg (Atom.equals_trans (Atom.equals_symm hkey') hkey))
      | _ => simp [equals] at hwu
    | _ => simp [equals] at hvw

/-! ### Strict equality -/

/-- Strict equality compares no kinds but those of the values themselves, and of these only whether
they are truth values. -/
theorem strictEquals_iff : v.strictEquals w = true ↔ v.equals w = true ∧ v.isBool = w.isBool := by
  cases v with
  | atom a => cases w with
    | atom b => cases a with
      | bool _ => cases b with
        | num y => cases y <;> simp [strictEquals, equals, kind, isBool]
        | _ => simp [strictEquals, equals, kind, isBool, Atom.equals, Atom.numeric?]
      | num x => cases b with
        | bool _ => cases x <;> simp [strictEquals, equals, kind, isBool]
        | _ => simp [strictEquals, equals, kind, isBool, Atom.equals, Atom.numeric?]
      | _ => cases b <;> simp [strictEquals, equals, kind, isBool, Atom.equals, Atom.numeric?]
    | _ => cases a <;> simp [strictEquals, equals, kind, isBool]
  | _ => cases w <;> simp [strictEquals, equals, kind, isBool]

/-- Strict equality is an equivalence of the proper values. -/
theorem isLikeness_strictEquals : Sequence.IsLikeness strictEquals IsProper where
  refl v hv := strictEquals_iff.2 ⟨equals_self hv, rfl⟩
  symm v w hv hw h := by
    rw [strictEquals_iff] at h ⊢
    exact ⟨equals_symm hv.isTidy hw.isTidy h.1, h.2.symm⟩
  trans v w u hv hw hu hvw hwu := by
    rw [strictEquals_iff] at hvw hwu ⊢
    exact ⟨equals_trans hv.isTidy hw.isTidy hu.isTidy hvw.1 hwu.1, hvw.2.trans hwu.2⟩

end Value

end NodeFlow
