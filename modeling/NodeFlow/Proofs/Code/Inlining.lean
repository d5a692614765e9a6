import NodeFlow.Proofs.Code.Written

/-!
# Inlining without a bound

`Inlining g way keys memo texts memo'` says that the expressions for some outputs, asked for one
after the other while those of `way` are being written, are `texts`, and that the memo grows from
`memo` to `memo'` meanwhile.  `Stopping g way keys memo memo'` says that a constant that cannot be
written is come upon, with `memo'` known by then.  Together they are the recursion of `inlineFrom`
without a bound on the steps down, so a proof of either is a run that ends.  The bound is never
reached (`inlined_or_stopped`).
-/

open Relation NodeFlow.Outcome

namespace NodeFlow.Code

/-- The outputs `keys` are written as `texts`, and the memo becomes `memo'`. -/
inductive Inlining (g : Graph) :
    List Key → List (Option Key) → Memo → List String → Memo → Prop
  | done {way : List Key} {memo : Memo} : Inlining g way [] memo [] memo
  | unwired {way keys memo texts memo'} (rest : Inlining g way keys memo texts memo') :
      Inlining g way (none :: keys) memo (nothing :: texts) memo'
  | absent {way id handle keys memo texts memo'} (hn : g.node? id = none)
      (rest : Inlining g way keys memo texts memo') :
      Inlining g way (some (id, handle) :: keys) memo (nothing :: texts) memo'
  | known {way id handle n text keys memo texts memo'} (hn : g.node? id = some n)
      (hmemo : memo.lookup (id, keptHandle (g.origin n) handle) = some text)
      (rest : Inlining g way keys memo texts memo') :
      Inlining g way (some (id, handle) :: keys) memo (text :: texts) memo'
  | again {way id handle n keys memo texts memo'} (hn : g.node? id = some n)
      (hmemo : memo.lookup (id, keptHandle (g.origin n) handle) = none)
      (hway : (id, keptHandle (g.origin n) handle) ∈ way)
      (rest : Inlining g way keys memo texts memo') :
      Inlining g way (some (id, handle) :: keys) memo (cycleMark :: texts) memo'
  | fresh {way id handle n text parts keys memo memo' texts memo''} (hn : g.node? id = some n)
      (hmemo : memo.lookup (id, keptHandle (g.origin n) handle) = none)
      (hway : (id, keptHandle (g.origin n) handle) ∉ way)
      (inner : Inlining g ((id, keptHandle (g.origin n) handle) :: way)
        ((g.origin n).wires.map wanted) memo parts memo')
      (htext : written (keptHandle (g.origin n) handle) (g.origin n) parts = .ok text)
      (rest : Inlining g way keys (((id, keptHandle (g.origin n) handle), text) :: memo')
        texts memo'') :
      Inlining g way (some (id, handle) :: keys) memo (text :: texts) memo''

/-- The outputs `keys` are not all written, and the memo becomes `memo'` by then. -/
inductive Stopping (g : Graph) : List Key → List (Option Key) → Memo → Memo → Prop
  | later {way first keys memo text memo' memo''} (hfirst : Inlining g way [first] memo [text] memo')
      (rest : Stopping g way keys memo' memo'') : Stopping g way (first :: keys) memo memo''
  | inside {way id handle n keys memo memo'} (hn : g.node? id = some n)
      (hmemo : memo.lookup (id, keptHandle (g.origin n) handle) = none)
      (hway : (id, keptHandle (g.origin n) handle) ∉ way)
      (inner : Stopping g ((id, keptHandle (g.origin n) handle) :: way)
        ((g.origin n).wires.map wanted) memo memo') :
      Stopping g way (some (id, handle) :: keys) memo memo'
  | here {way id handle n parts keys memo memo'} (hn : g.node? id = some n)
      (hmemo : memo.lookup (id, keptHandle (g.origin n) handle) = none)
      (hway : (id, keptHandle (g.origin n) handle) ∉ way)
      (inner : Inlining g ((id, keptHandle (g.origin n) handle) :: way)
        ((g.origin n).wires.map wanted) memo parts memo')
      (hwritten : written (keptHandle (g.origin n) handle) (g.origin n) parts = .error ⟨⟩) :
      Stopping g way (some (id, handle) :: keys) memo memo'

variable {g : Graph} {way : List Key} {keys keys' : List (Option Key)} {texts texts' : List String}
  {memo memo' memo'' : Memo}

theorem Stopping.append (h : Stopping g way keys memo memo') (keys' : List (Option Key)) :
    Stopping g way (keys ++ keys') memo memo' := by
  induction h with
  | later hfirst _ ih => exact .later hfirst ih
  | inside hn hmemo hway inner => exact .inside hn hmemo hway inner
  | here hn hmemo hway inner hwritten => exact .here hn hmemo hway inner hwritten

theorem Inlining.append (h : Inlining g way keys memo texts memo')
    (h' : Inlining g way keys' memo' texts' memo'') :
    Inlining g way (keys ++ keys') memo (texts ++ texts') memo'' := by
  induction h with
  | done => exact h'
  | unwired _ ih => exact .unwired (ih h')
  | absent hn _ ih => exact .absent hn (ih h')
  | known hn hmemo _ ih => exact .known hn hmemo (ih h')
  | again hn hmemo hway _ ih => exact .again hn hmemo hway (ih h')
  | fresh hn hmemo hway inner htext _ _ ih => exact .fresh hn hmemo hway inner htext (ih h')

/-- What comes in has a property that belongs to the node it comes from. -/
def PartOf (P : String → String → Prop) : Option Key → String → Prop
  | none, text => text = nothing
  | some key, text => P key.1 text

theorem PartOf.imp {P : String → String → Prop} {Q : String → Prop} (hnothing : Q nothing)
    (himp : ∀ {id text}, P id text → Q text) {key : Option Key} {part : String}
    (h : PartOf P key part) : Q part := by
  cases key with
  | none => exact h ▸ hnothing
  | some key => exact himp h

theorem forall_of_partOf {P : String → String → Prop} {Q : String → Prop} (hnothing : Q nothing)
    (himp : ∀ {id text}, P id text → Q text) {parts : List String}
    (h : List.Forall₂ (PartOf P) keys parts) : ∀ part ∈ parts, Q part := by
  induction h with
  | nil => exact nofun
  | cons hpart _ ih => exact List.forall_mem_cons.2 ⟨hpart.imp hnothing himp, ih⟩

/-- What the mark and the expression of an absent node have, and expressions get from their parts. -/
structure Inherited (g : Graph) (P : String → String → Prop) : Prop where
  absent : ∀ id, g.node? id = none → P id nothing
  mark : ∀ id, P id cycleMark
  written : ∀ {id n} {handle : Option String} {parts : List String} {text : String},
    g.node? id = some n → List.Forall₂ (PartOf P) ((g.origin n).wires.map wanted) parts →
    written handle (g.origin n) parts = .ok text → P id text

/-- What is inherited all expressions of a run have, if those in the memo do. -/
theorem Inlining.invariant {P : String → String → Prop} (hP : Inherited g P)
    (h : Inlining g way keys memo texts memo') (hmemo : ∀ entry ∈ memo, P entry.1.1 entry.2) :
    (∀ entry ∈ memo', P entry.1.1 entry.2) ∧ List.Forall₂ (PartOf P) keys texts := by
  induction h with
  | done => exact ⟨hmemo, .nil⟩
  | unwired _ ih =>
    obtain ⟨hmemo', hrest⟩ := ih hmemo
    exact ⟨hmemo', .cons rfl hrest⟩
  | absent hn _ ih =>
    obtain ⟨hmemo', hrest⟩ := ih hmemo
    exact ⟨hmemo', .cons (hP.absent _ hn) hrest⟩
  | known _ hlookup _ ih =>
    obtain ⟨hmemo', hrest⟩ := ih hmemo
    exact ⟨hmemo', .cons (hmemo _ (mem_of_lookup hlookup)) hrest⟩
  | again _ _ _ _ ih =>
    obtain ⟨hmemo', hrest⟩ := ih hmemo
    exact ⟨hmemo', .cons (hP.mark _) hrest⟩
  | @fresh _ id _ n text _ _ _ _ _ _ hn _ _ _ htext _ ihinner ih =>
    obtain ⟨hinner, hparts⟩ := ihinner hmemo
    have hfirst : P id text := hP.written hn hparts htext
    obtain ⟨hmemo'', hrest⟩ := ih (List.forall_mem_cons.2 ⟨hfirst, hinner⟩)
    exact ⟨hmemo'', .cons hfirst hrest⟩

theorem Stopping.invariant {P : String → String → Prop} (hP : Inherited g P)
    (h : Stopping g way keys memo memo') (hmemo : ∀ entry ∈ memo, P entry.1.1 entry.2) :
    ∀ entry ∈ memo', P entry.1.1 entry.2 := by
  induction h with
  | later hfirst _ ih => exact ih (hfirst.invariant hP hmemo).1
  | inside _ _ _ _ ih => exact ih hmemo
  | here _ _ _ inner _ => exact (inner.invariant hP hmemo).1

/-- A run stops at a constant that cannot be written, among the nodes that it has come to. -/
theorem Stopping.unwritable (h : Stopping g way keys memo memo') :
    ∃ key, some key ∈ keys ∧ g.Unwritable key.1 := by
  induction h with
  | later _ _ ih =>
    obtain ⟨key, hkey, hunwritable⟩ := ih
    exact ⟨key, List.mem_cons_of_mem _ hkey, hunwritable⟩
  | @inside _ id handle n _ _ _ hn _ _ _ ih =>
    obtain ⟨key, hkey, hunwritable⟩ := ih
    have hd := Graph.depends_of_wanted hn hkey
    exact ⟨(id, handle), List.mem_cons_self, Graph.unwritable_of_depends hd hunwritable⟩
  | @here _ id handle _ _ _ _ _ hn _ _ _ hwritten =>
    exact ⟨(id, handle), List.mem_cons_self, Graph.unwritable_of_written hn hwritten⟩

/-! ### Runs one after the other -/

/-- How several outputs are asked for, told by one relation for runs that give texts and one for
runs that stop: both hold of several outputs as they hold of one after the other. -/
structure Successive (R : List (Option Key) → Memo → List String → Memo → Prop)
    (S : List (Option Key) → Memo → Memo → Prop) : Prop where
  done : ∀ memo, R [] memo [] memo
  unwired : ∀ memo, R [none] memo [nothing] memo
  next : ∀ {first keys memo text memo' texts memo''}, R [first] memo [text] memo' →
    R keys memo' texts memo'' → R (first :: keys) memo (text :: texts) memo''
  later : ∀ {first keys memo text memo' memo''}, R [first] memo [text] memo' →
    S keys memo' memo'' → S (first :: keys) memo memo''
  stop : ∀ {first memo memo'}, S [first] memo memo' → ∀ keys, S (first :: keys) memo memo'

/-- Asking for some outputs ends, with their texts or with a stop. -/
def Ends (R : List (Option Key) → Memo → List String → Memo → Prop)
    (S : List (Option Key) → Memo → Memo → Prop) (keys : List (Option Key)) (memo : Memo) :
    Except TooManyDigits (List String) × Memo → Prop
  | (.ok texts, memo') => R keys memo texts memo'
  | (.error _, memo') => S keys memo memo'

/-- Asking for one output ends, with its text or with a stop. -/
def EndsAt (R : List (Option Key) → Memo → List String → Memo → Prop)
    (S : List (Option Key) → Memo → Memo → Prop) (key : Option Key) (memo : Memo) :
    Spelling × Memo → Prop
  | (.ok text, memo') => R [key] memo [text] memo'
  | (.error _, memo') => S [key] memo memo'

/-- What a computation for each wire in turn does. -/
theorem Successive.mapM {R : List (Option Key) → Memo → List String → Memo → Prop}
    {S : List (Option Key) → Memo → Memo → Prop} (h : Successive R S) {ask : Key → Writing String}
    {wires : List (Option Edge)} (hask : ∀ e, some e ∈ wires → ∀ memo,
      EndsAt R S (some (e.source, e.sourceHandle)) memo ((ask (e.source, e.sourceHandle)).run memo))
    (memo : Memo) :
    Ends R S (wires.map wanted) memo ((wires.mapM (brought ask)).run memo) := by
  induction wires generalizing memo with
  | nil => exact h.done memo
  | cons e rest ih =>
    have hfirst : EndsAt R S (wanted e) memo ((brought ask e).run memo) := by
      cases e with
      | none => exact h.unwired memo
      | some e => exact hask e List.mem_cons_self memo
    have hrest := ih fun e' he' => hask e' (List.mem_cons_of_mem e he')
    rw [List.mapM_cons, run_bind, List.map_cons]
    rcases hrun : (brought ask e).run memo with ⟨text | c, memo'⟩
    · rw [hrun] at hfirst
      exact h.stop hfirst _
    · rw [hrun] at hfirst
      have hrest' := hrest memo'
      dsimp only
      rw [run_bind]
      rcases hrun' : (rest.mapM (brought ask)).run memo' with ⟨texts | c, memo''⟩
      · rw [hrun'] at hrest'
        exact h.later hfirst hrest'
      · rw [hrun'] at hrest'
        exact h.next hfirst hrest'

theorem successive_inlining (g : Graph) (way : List Key) :
    Successive (Inlining g way) (Stopping g way) where
  done _ := .done
  unwired _ := .unwired .done
  next hfirst hrest := hfirst.append hrest
  later hfirst hrest := .later hfirst hrest
  stop hfirst keys := hfirst.append keys

/-! ### Runs -/

variable {id : String} {handle : Option String} {n : Node} {depth : Nat}

theorem run_inlineFrom_absent (hn : g.node? id = none) :
    (inlineFrom g (depth + 1) way (id, handle)).run memo = (.ok nothing, memo) := by
  rw [inlineFrom, hn]
  rfl

theorem run_inlineFrom (hn : g.node? id = some n) :
    (inlineFrom g (depth + 1) way (id, handle)).run memo =
      let key := (id, keptHandle (g.origin n) handle)
      match memo.lookup key with
      | some text => (.ok text, memo)
      | none =>
        if way.contains key then (.ok cycleMark, memo)
        else
          match (originText key.2 (inlineFrom g depth (key :: way)) (g.origin n)).run memo with
          | (.ok text, memo') => (.ok text, (key, text) :: memo')
          | (.error c, memo') => (.error c, memo') := by
  rw [inlineFrom, hn]
  show ((match memo.lookup (id, keptHandle (g.origin n) handle) with
    | some text => pure text
    | none => _ : Writing String)).run memo = _
  dsimp only
  cases memo.lookup (id, keptHandle (g.origin n) handle) with
  | some text => rfl
  | none =>
    dsimp only
    split
    · rfl
    · rw [run_bind]
      rcases (originText _ _ _).run memo with ⟨c | text, memo'⟩ <;> rfl

/-! ### The bound is never reached -/

/-- The output under which the expression for an output is kept. -/
def kept (g : Graph) (key : Key) : Key :=
  match g.node? key.1 with
  | none => key
  | some n => (key.1, keptHandle (g.origin n) key.2)

theorem kept_fst (key : Key) : (kept g key).1 = key.1 := by
  rw [kept]
  split <;> rfl

theorem kept_of_node (hn : g.node? id = some n) :
    kept g (id, handle) = (id, keptHandle (g.origin n) handle) := by
  rw [kept, hn]

/-- The outputs that a descent can come to: the one that it starts from and the sources of edges. -/
def outputs (g : Graph) (start : Key) : List Key :=
  kept g start :: g.edges.map fun e => kept g (e.source, e.sourceHandle)

theorem mem_outputs {start : Key} {e : Edge} (h : e ∈ g.edges) :
    kept g (e.source, e.sourceHandle) ∈ outputs g start :=
  List.mem_cons_of_mem _ (List.mem_map_of_mem h)

/-- A run that has enough steps left is a run without a bound. -/
theorem endsAt_inlineFrom {start key : Key} (trail : Trail (fun k k' => g.Depends k.1 k'.1)
      (outputs g start) way (kept g key) depth) (hkey : kept g key ∈ outputs g start)
    (memo : Memo) :
    EndsAt (Inlining g way) (Stopping g way) (some key) memo
      ((inlineFrom g depth way key).run memo) := by
  induction depth generalizing way key memo with
  | zero => exact absurd trail.pos (Nat.lt_irrefl 0)
  | succ depth ih =>
    obtain ⟨id, handle⟩ := key
    cases hn : g.node? id with
    | none =>
      rw [run_inlineFrom_absent hn]
      exact .absent hn .done
    | some n =>
      rw [kept_of_node hn] at trail hkey
      rw [run_inlineFrom hn]
      dsimp only
      cases hmemo : memo.lookup (id, keptHandle (g.origin n) handle) with
      | some text => exact .known hn hmemo .done
      | none =>
        by_cases hway : (id, keptHandle (g.origin n) handle) ∈ way
        · rw [if_pos (List.contains_iff_mem.2 hway)]
          exact .again hn hmemo hway .done
        · rw [if_neg (mt List.contains_iff_mem.1 hway), run_originText]
          let way' := (id, keptHandle (g.origin n) handle) :: way
          have hasked : ∀ e, some e ∈ (g.origin n).wires → ∀ memo,
              EndsAt (Inlining g way') (Stopping g way') (some (e.source, e.sourceHandle)) memo
                ((inlineFrom g depth way' (e.source, e.sourceHandle)).run memo) := by
            intro e he memo
            have hedge : e ∈ (g.origin n).edges := Origin.mem_edges_iff.2 he
            have hout : kept g (e.source, e.sourceHandle) ∈ outputs g start :=
              mem_outputs (Graph.mem_edges_of_mem_dataIn (Graph.mem_dataIn_of_origin hedge))
            refine ih (trail.step hkey hway ?_) hout memo
            rw [kept_fst]
            exact Graph.depends_source hn hedge
          have hparts := (successive_inlining g way').mapM hasked memo
          rcases hrun : ((g.origin n).wires.mapM (brought (inlineFrom g depth way'))).run memo with
            ⟨c | parts, memo'⟩
          · rw [hrun] at hparts
            exact .inside hn hmemo hway hparts
          · rw [hrun] at hparts
            dsimp only
            cases htext : written (keptHandle (g.origin n) handle) (g.origin n) parts with
            | error c => exact .here hn hmemo hway hparts htext
            | ok text => exact .fresh hn hmemo hway hparts htext .done

/-- Asking for the expression for an output ends, whatever is in the memo: it is written, or a
constant that cannot be written is come upon. -/
theorem inlined_or_stopped (key : Key) (memo : Memo) :
    EndsAt (Inlining g []) (Stopping g []) (some key) memo ((inline g key).run memo) := by
  refine endsAt_inlineFrom (.start (kept g key) ?_) List.mem_cons_self memo
  rw [outputs, List.length_cons, List.length_map]
  exact Nat.lt_succ_self _

end NodeFlow.Code
