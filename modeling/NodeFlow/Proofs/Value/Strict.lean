import NodeFlow.Proofs.Value.Equality

/-!
# How strict strict equality is

Strict equality keeps truth values and numbers apart, but inside of lists, pairs and records it is
plain equality, for which a truth value is the number that it counts as.  So the parts of strictly
equal values are strictly equal or cross over between truth values and numbers
(`Value.strictEquals_list_iff`, `Value.strictEquals_record_iff`), and strict equality is strict at
every depth exactly for values that do not cross below the top (`Value.alike_iff`).
-/

namespace NodeFlow.Value

variable {v w : Value} {xs ys : List Value} {es fs : List (Atom × Value)}

/-! ### Crossing over -/

/-- Of two equal values one is a truth value and the other a number. -/
inductive Crosses : Value → Value → Prop
  | truth {b : Bool} {x : Number} (h : (Number.int (if b then 1 else 0)).equals x = true) :
    Crosses (bool b) (num x)
  | number {b : Bool} {x : Number} (h : x.equals (.int (if b then 1 else 0)) = true) :
    Crosses (num x) (bool b)

theorem crosses_iff : v.Crosses w ↔ v.equals w = true ∧ v.isBool ≠ w.isBool := by
  constructor
  · rintro (h | h) <;> simp [equals, Atom.equals, Atom.numeric?, isBool, h]
  · rintro ⟨hequal, hbool⟩
    cases v with
    | atom a => cases w with
      | atom b =>
        rw [equals] at hequal
        cases a with
        | bool _ => cases b with
          | num _ => exact .truth hequal
          | bool _ => simp [isBool] at hbool
          | _ => cases hequal
        | num _ => cases b with
          | bool _ => exact .number hequal
          | _ => simp [isBool] at hbool
        | _ => cases b with
          | bool _ => cases hequal
          | _ => simp [isBool] at hbool
      | _ => simp [equals] at hequal
    | _ => cases w <;> simp [equals, isBool] at hequal hbool

instance : Decidable (v.Crosses w) := decidable_of_iff _ crosses_iff.symm

theorem Crosses.not_strictEquals (h : v.Crosses w) : v.strictEquals w = false := by
  rw [← Bool.not_eq_true, strictEquals_iff, not_and]
  exact fun _ => (crosses_iff.1 h).2

/-- Equal values are strictly equal, or they cross. -/
theorem equals_iff_strictEquals_or_crosses :
    v.equals w = true ↔ v.strictEquals w = true ∨ v.Crosses w := by
  rw [strictEquals_iff, crosses_iff]
  by_cases h : v.isBool = w.isBool <;> simp [h]

/-! ### The parts of strictly equal values -/

theorem strictEquals_list_iff : (list xs).strictEquals (list ys) = true ↔
    List.Forall₂ (fun v w => v.strictEquals w = true ∨ v.Crosses w) xs ys := by
  rw [strictEquals_iff, equals_list_iff]
  simp only [isBool, and_true, equals_iff_strictEquals_or_crosses]

theorem strictEquals_record_iff (hes : Record.HasOwnKeys es) (hfs : Record.HasOwnKeys fs) :
    (record es).strictEquals (record fs) = true ↔ Record.SameKeys es fs ∧
      ∀ e ∈ es, ∀ f ∈ fs, e.1.equals f.1 = true → e.2.strictEquals f.2 = true ∨ e.2.Crosses f.2 := by
  rw [strictEquals_iff, equals_record_iff hes hfs]
  simp only [isBool, and_true, equals_iff_strictEquals_or_crosses]

/-- Lists that cross at no position are strictly equal exactly if they are so position by
position. -/
theorem strictEquals_list_of_not_crosses (h : ∀ p ∈ xs.zip ys, ¬ p.1.Crosses p.2) :
    (list xs).strictEquals (list ys) = true ↔
      List.Forall₂ (fun v w => v.strictEquals w = true) xs ys := by
  rw [strictEquals_list_iff, List.forall₂_iff_zip, List.forall₂_iff_zip]
  refine and_congr_right fun _ => forall₂_congr fun v w => ?_
  exact imp_congr_right fun hin => or_iff_left (h _ hin)

/-- Records that cross under no key are strictly equal exactly if they have the same keys and are
strictly equal under each. -/
theorem strictEquals_record_of_not_crosses (hes : Record.HasOwnKeys es)
    (hfs : Record.HasOwnKeys fs)
    (h : ∀ e ∈ es, ∀ f ∈ fs, e.1.equals f.1 = true → ¬ e.2.Crosses f.2) :
    (record es).strictEquals (record fs) = true ↔ Record.SameKeys es fs ∧
      ∀ e ∈ es, ∀ f ∈ fs, e.1.equals f.1 = true → e.2.strictEquals f.2 = true := by
  rw [strictEquals_record_iff hes hfs]
  refine and_congr_right fun _ => forall₂_congr fun e he => forall₂_congr fun f hf => ?_
  exact imp_congr_right fun hkey => or_iff_left (h e he f hf hkey)

/-! ### Strictness at every depth -/

/-- Two values are equal with no truth value taken for a number at any depth, members of sets and
keys of records included. -/
inductive Alike : Value → Value → Prop
  | atom {a b : Atom} (h : (atom a).strictEquals (atom b) = true) : Alike (atom a) (atom b)
  | list {xs ys : List Value} (hlength : xs.length = ys.length)
    (h : ∀ p ∈ xs.zip ys, Alike p.1 p.2) : Alike (list xs) (list ys)
  | pair {v v' w w' : Value} (h : Alike v w) (h' : Alike v' w') : Alike (pair v v') (pair w w')
  | set {as bs : List Atom} (hequal : (set as).equals (set bs) = true)
    (h : ∀ a ∈ as, ∀ b ∈ bs, a.equals b = true → (atom a).strictEquals (atom b) = true) :
    Alike (set as) (set bs)
  | record {es fs : List (Atom × Value)} (hsame : Record.SameKeys es fs)
    (hkeys : ∀ e ∈ es, ∀ f ∈ fs, e.1.equals f.1 = true →
      (atom e.1).strictEquals (atom f.1) = true)
    (hvalues : ∀ e ∈ es, ∀ f ∈ fs, e.1.equals f.1 = true → Alike e.2 f.2) :
    Alike (record es) (record fs)

/-- At a depth of two values a truth value stands against a number that it counts as. -/
inductive CrossesAt : Nat → Value → Value → Prop
  | top {v w : Value} (h : v.Crosses w) : CrossesAt 0 v w
  | item {depth : Nat} {xs ys : List Value} {p : Value × Value} (hp : p ∈ xs.zip ys)
    (h : CrossesAt depth p.1 p.2) : CrossesAt (depth + 1) (list xs) (list ys)
  | first {depth : Nat} {v v' w w' : Value} (h : CrossesAt depth v w) :
    CrossesAt (depth + 1) (pair v v') (pair w w')
  | second {depth : Nat} {v v' w w' : Value} (h : CrossesAt depth v' w') :
    CrossesAt (depth + 1) (pair v v') (pair w w')
  | member {as bs : List Atom} {a b : Atom} (ha : a ∈ as) (hb : b ∈ bs)
    (h : (atom a).Crosses (atom b)) : CrossesAt 1 (set as) (set bs)
  | key {es fs : List (Atom × Value)} {e f : Atom × Value} (he : e ∈ es) (hf : f ∈ fs)
    (h : (atom e.1).Crosses (atom f.1)) : CrossesAt 1 (record es) (record fs)
  | entry {depth : Nat} {es fs : List (Atom × Value)} {e f : Atom × Value} (he : e ∈ es)
    (hf : f ∈ fs) (hkey : e.1.equals f.1 = true) (h : CrossesAt depth e.2 f.2) :
    CrossesAt (depth + 1) (record es) (record fs)

@[simp]
theorem crossesAt_atom_iff {a : Atom} {depth : Nat} :
    (atom a).CrossesAt depth w ↔ depth = 0 ∧ (atom a).Crosses w := by
  constructor
  · rintro (_ | _)
    exact ⟨rfl, by assumption⟩
  · rintro ⟨rfl, h⟩
    exact .top h

@[simp]
theorem crossesAt_list_iff {depth : Nat} :
    (list xs).CrossesAt (depth + 1) (list ys) ↔ ∃ p ∈ xs.zip ys, p.1.CrossesAt depth p.2 := by
  constructor
  · intro h
    cases h with | item hp h => exact ⟨_, hp, h⟩
  · rintro ⟨p, hp, h⟩
    exact .item hp h

theorem Alike.equals (h : v.Alike w) (hv : v.IsTidy) (hw : w.IsTidy) : v.equals w = true := by
  induction h with
  | atom h => exact (strictEquals_iff.1 h).1
  | list hlength _ ih =>
    cases hv with | list hxs => cases hw with | list hys =>
    refine equals_list_iff.2 (List.forall₂_iff_zip.2 ⟨hlength, fun hp => ?_⟩)
    obtain ⟨hx, hy⟩ := List.of_mem_zip hp
    exact ih _ hp (hxs _ hx) (hys _ hy)
  | pair _ _ ih ih' =>
    cases hv with | pair hv hv' => cases hw with | pair hw hw' =>
    rw [Value.equals, ih hv hw, ih' hv' hw', Bool.and_self]
  | set hequal _ => exact hequal
  | record hsame _ _ ih =>
    cases hv with | record _ hes hdistinct => cases hw with | record _ hfs hdistinct' =>
    exact (equals_record_iff hdistinct hdistinct').2
      ⟨hsame, fun e he f hf hkey => ih e he f hf hkey (hes e he) (hfs f hf)⟩

theorem Alike.strictEquals (h : v.Alike w) (hv : v.IsTidy) (hw : w.IsTidy) :
    v.strictEquals w = true := by
  have hequal := h.equals hv hw
  cases h with
  | atom h => exact h
  | _ => exact strictEquals_iff.2 ⟨hequal, rfl⟩

theorem CrossesAt.not_alike {depth : Nat} (hcross : v.CrossesAt depth w) (h : v.Alike w) : False := by
  have hstrict {a b : Atom} (hcross : (atom a).Crosses (atom b)) :
      (atom a).strictEquals (atom b) ≠ true := by simp [hcross.not_strictEquals]
  induction hcross with
  | top hcross =>
    cases h with
    | atom h => exact hstrict hcross h
    | _ => cases hcross
  | item hp _ ih => cases h with | list _ h => exact ih (h _ hp)
  | first _ ih => cases h with | pair h _ => exact ih h
  | second _ ih => cases h with | pair _ h => exact ih h
  | member ha hb hcross =>
    cases h with | set _ h =>
    exact hstrict hcross (h _ ha _ hb (by simpa [Value.equals] using (crosses_iff.1 hcross).1))
  | key he hf hcross =>
    cases h with | record _ h _ =>
    exact hstrict hcross (h _ he _ hf (by simpa [Value.equals] using (crosses_iff.1 hcross).1))
  | entry he hf hkey _ ih => cases h with | record _ _ h => exact ih (h _ he _ hf hkey)

/-- Equal values that cross at no depth are alike. -/
theorem alike_of_equals (hv : v.IsTidy) (hw : w.IsTidy) (hequal : v.equals w = true)
    (hcross : ∀ depth, ¬ v.CrossesAt depth w) : v.Alike w := by
  have hstrict {v w : Value} (hequal : v.equals w = true) (h : ¬ v.Crosses w) :
      v.strictEquals w = true :=
    (equals_iff_strictEquals_or_crosses.1 hequal).resolve_right h
  induction hv generalizing w with
  | atom _ => cases hw with
    | atom _ => exact .atom (hstrict hequal fun h => hcross 0 (.top h))
    | _ => simp [equals] at hequal
  | list _ ih => cases hw with
    | list hws =>
      obtain ⟨hlength, hitems⟩ := List.forall₂_iff_zip.1 (equals_list_iff.1 hequal)
      refine .list hlength fun p hp => ?_
      obtain ⟨hx, hy⟩ := List.of_mem_zip (a := p.1) (b := p.2) hp
      exact ih _ hx (hws _ hy) (hitems hp) fun depth h => hcross _ (.item hp h)
    | _ => simp [equals] at hequal
  | pair _ _ ih ih' => cases hw with
    | pair hw hw' =>
      rw [equals, Bool.and_eq_true] at hequal
      exact .pair (ih hw hequal.1 fun depth h => hcross _ (.first h))
        (ih' hw' hequal.2 fun depth h => hcross _ (.second h))
    | _ => simp [equals] at hequal
  | set _ _ => cases hw with
    | set _ _ =>
      refine .set hequal fun a ha b hb hab => hstrict (by rwa [equals]) fun h => ?_
      exact hcross 1 (.member ha hb h)
    | _ => simp [equals] at hequal
  | record _ _ hdistinct ih => cases hw with
    | record _ hws hdistinct' =>
      obtain ⟨hsame, hvalues⟩ := (equals_record_iff hdistinct hdistinct').1 hequal
      refine .record hsame (fun e he f hf hkey => ?_) fun e he f hf hkey => ?_
      · exact hstrict (by rwa [equals]) fun h => hcross 1 (.key he hf h)
      · exact ih e he (hws f hf) (hvalues e he f hf hkey)
          fun depth h => hcross _ (.entry he hf hkey h)
    | _ => simp [equals] at hequal

/-- Strict equality is strict at every depth exactly for values that do not cross below the top. -/
theorem alike_iff (hv : v.IsTidy) (hw : w.IsTidy) :
    v.Alike w ↔ v.strictEquals w = true ∧ ∀ depth, ¬ v.CrossesAt (depth + 1) w := by
  constructor
  · intro h
    exact ⟨h.strictEquals hv hw, fun _ hcross => hcross.not_alike h⟩
  · rintro ⟨hstrict, hcross⟩
    refine alike_of_equals hv hw (strictEquals_iff.1 hstrict).1 fun depth h => ?_
    cases depth with
    | zero =>
      cases h with | top h =>
      rw [h.not_strictEquals] at hstrict
      cases hstrict
    | succ depth => exact hcross depth h

theorem strictEquals_iff_alike (hv : v.IsTidy) (hw : w.IsTidy)
    (hcross : ∀ depth, ¬ v.CrossesAt (depth + 1) w) : v.strictEquals w = true ↔ v.Alike w := by
  rw [alike_iff hv hw, and_iff_left hcross]

end NodeFlow.Value
