import NodeFlow.Proofs.Code.Lines
import NodeFlow.Proofs.Code.Places

/-!
# Writes to variables are written once

In a graph without loops and cycles, the code of a write to a variable stands at one place at most,
if nothing is read from the outputs that the write feeds (`writes_once`).  A graph in which such an
output feeds another one shows that the condition is needed (`write_repeated`).
-/

open Relation NodeFlow.Outcome

namespace NodeFlow.Code

variable {g : Graph} {id : String} {n : Node}

/-- The code of a write to a variable. -/
def writeText (op name value : String) : String :=
  if op = Operator.setVariable.id then "_set(vars, " ++ name ++ ", (" ++ value ++ "))"
  else "_set(vars, " ++ name ++ ", (_get(vars, " ++ name ++ ", 0) + (" ++ value ++ ")))"

/-- The expression of what comes in at an input. -/
def inputText (g : Graph) (bound : Bound) (id port : String) : Spelling :=
  bringing (render g bound) (g.inputEdge? id (some port))

/-- A node that writes to a variable. -/
def IsWrite (n : Node) (op : String) : Prop :=
  n.operator? = some op ∧ op ∈ [Operator.setVariable.id, Operator.addToVariable.id]

theorem IsWrite.applies {op : String} (h : IsWrite n op) (hn : g.node? id = some n) :
    Applies g id := by
  obtain ⟨hop, hmem⟩ := h
  simp only [List.mem_cons, List.not_mem_nil, or_false] at hmem
  rcases hmem with rfl | rfl
  · exact ⟨n, _, Operator.setVariable, hn, hop, rfl⟩
  · exact ⟨n, _, Operator.addToVariable, hn, hop, rfl⟩

/-- What comes in at two inputs. -/
theorem exists_pair_of_forall₂ {α β : Type} {R : α → β → Prop} {a b : α} {parts : List β}
    (h : List.Forall₂ R [a, b] parts) : ∃ c d, parts = [c, d] ∧ R a c ∧ R b d := by
  cases h with
  | cons hfirst hrest =>
    cases hrest with
    | cons hsecond hnil =>
      cases hnil
      exact ⟨_, _, rfl, hfirst, hsecond⟩

theorem applied_setVariable (name value : String) :
    applied Operator.setVariable none [("name", name), ("value", value)] =
      writeText Operator.setVariable.id name value := by
  simp [applied, Operator.setVariable, Template.fill?, Template.fillPiece?, List.lookup_cons,
    Snippet.select, String.join, writeText]

theorem applied_addToVariable (name value : String) :
    applied Operator.addToVariable none [("name", name), ("value", value)] =
      writeText Operator.addToVariable.id name value := by
  simp [applied, Operator.addToVariable, Template.fill?, Template.fillPiece?, List.lookup_cons,
    Snippet.select, String.join, writeText, Operator.setVariable]

/-- A write is written from what comes in at its two inputs. -/
theorem exists_of_assignment_write (hg : g.Acyclic) {op : String} (h : IsWrite n op)
    (hn : g.node? id = some n) {bound : Bound} {text : String}
    (htext : assignment g bound id = .ok text) : ∃ name value,
      inputText g bound id "name" = .ok name ∧ inputText g bound id "value" = .ok value ∧
      text = writeText op name value := by
  obtain ⟨hop, hmem⟩ := h
  rw [assignment_of_node hg hn] at htext
  obtain ⟨parts, hparts, htext⟩ := composed_eq_ok_iff.1 htext
  obtain rfl := Graph.node?_id hn
  simp only [List.mem_cons, List.not_mem_nil, or_false] at hmem
  rcases hmem with rfl | rfl
  · have hlookup : Catalog.lookup? Operator.setVariable.id = some Operator.setVariable := rfl
    rw [Graph.origin_of_operator hop hlookup] at hparts htext
    obtain ⟨name, value, rfl, hname, hvalue⟩ := exists_pair_of_forall₂ hparts
    exact ⟨name, value, hname, hvalue, (Except.ok.inj htext).symm.trans (applied_setVariable ..)⟩
  · have hlookup : Catalog.lookup? Operator.addToVariable.id = some Operator.addToVariable := rfl
    rw [Graph.origin_of_operator hop hlookup] at hparts htext
    obtain ⟨name, value, rfl, hname, hvalue⟩ := exists_pair_of_forall₂ hparts
    exact ⟨name, value, hname, hvalue, (Except.ok.inj htext).symm.trans (applied_addToVariable ..)⟩

/-- **Writes are written once.**  In a graph without loops and cycles, whose nodes have names of
their own, the generated code is a sequence of places, each with the expression for its node.  Take a
node that writes to a variable, and let nothing be read from the outputs that it feeds.  Of the
places at most one copies the own expression of the node.  That place is given this expression and
nothing else; all others are written without the node, or with the name of its temporary in its
place.  Where something that the program is written with cannot be written, the code writes to no
variable. -/
theorem writes_once (hloops : ∀ n ∈ g.nodes, n.isLoop = false)
    (hcycles : ∀ v, ¬ TransGen g.digraph.Arrow v v) (hids : g.ids.Nodup)
    (hn : g.node? id = some n) {op : String} (hop : IsWrite n op)
    (houtputs : ∀ other ∈ g.ids, ∀ m ∈ g.node? other, m.kind = .output →
      id ∈ g.dependencies other → ∀ reader ∈ g.ids, other ∉ g.dependencies reader) (cap : Nat) :
    (∀ p, program g cap = .ok p →
      (generate g cap = joinLines (header g ++
        if g.roots.isEmpty then emptyFunction "No outputs; add an Output node and connect it."
        else [functionLine, "    vars = {}", "    results = {}"] ++
          p.places.map (fun s => assignLine 1 s.target s.text) ++ ["    return results"])) ∧
      (p.places.Pairwise fun s s' => ¬ (s.Copies g id ∧ s'.Copies g id)) ∧
      ∀ s ∈ p.places, s.expression g = .ok s.text ∧
        (s.Copies g id →
          (∃ name value, inputText g s.bound id "name" = .ok name ∧
            inputText g s.bound id "value" = .ok value ∧ s.text = writeText op name value) ∧
          ∀ text, s.expressionWith g id text = .ok text) ∧
        (¬ s.Copies g id →
          (∀ text, s.expressionWith g id text = .ok s.text) ∨
          ∃ a ∈ p.free, a.node = id ∧ s.expressionWith g id a.name = .ok s.text)) ∧
    (program g cap = .error ⟨⟩ → HasUnwritable g cap ∧ generate g cap = fallback) := by
  refine ⟨fun p hprogram => ?_, fun h => ⟨hasUnwritable_of_program h, generate_of_error h⟩⟩
  have hp : IsProgram g p := isProgram hprogram
  have hg : Straight g := by
    refine ⟨fun id => ?_, Graph.acyclic_of_arrow hcycles⟩
    cases hn : g.node? id with
    | none => simp [Graph.isLoop, hn]
    | some n => simp [Graph.isLoop, hn, hloops n (Graph.mem_nodes_of_node? hn)]
  have hid : Applies g id := hop.applies hn
  have hunread : Unread g id := by
    rintro other reader (heq | ⟨m, e, hm, hkind, hvalue, rfl⟩) hne hreads
    · exact hne heq
    · obtain ⟨r, hr⟩ := hreads.exists_node
      refine houtputs other (Graph.mem_ids_of_node? hm) m hm hkind ?_ reader
        (Graph.mem_ids_of_node? hr) hreads
      refine Graph.depends_source hm ?_
      rw [Graph.origin_of_output hkind, Graph.node?_id hm]
      exact Option.mem_toList.2 hvalue
  refine ⟨?_, hp.places_pairwise hg hcycles hids hid hunread, fun s hs =>
    ⟨hp.expression_eq hg hs, fun hcopies => ?_, fun hnot => ?_⟩⟩
  · rw [generate, hprogram]
    dsimp only
    rw [hp.lines_eq hg.loops]
  · obtain ⟨hexpression, hwith⟩ := hp.copied hg hcycles hid hunread hs hcopies
    rw [hp.expression_eq hg hs] at hexpression
    exact ⟨exists_of_assignment_write hg.acyclic hop hn hexpression.symm, hwith⟩
  · have hexpression := hp.expression_eq hg hs
    cases hname : s.bound.lookup id with
    | none =>
      refine .inl fun text => ?_
      rw [← hexpression]
      by_contra hne
      exact hnot ⟨hname, text, hne⟩
    | some name =>
      have hbound := hp.bound_of_mem_places hg.loops hs (mem_of_lookup hname)
      obtain ⟨a, ha, heq⟩ := List.mem_map.1 hbound
      obtain ⟨rfl, rfl⟩ := Prod.mk.inj heq
      exact .inr ⟨a, ha, rfl, (expressionWith_name hg.acyclic hname).trans hexpression⟩

/-- A variable that is written, and the written value used twice. -/
def doubled : Graph where
  nodes := [⟨"name", none, .const (.str "x") .string none⟩,
    ⟨"one", none, .const (.num (.int 1)) .number none⟩,
    ⟨"write", none, .operator "set_assign" none []⟩, ⟨"sum", none, .operator "add" none []⟩,
    ⟨"out", none, .output "sum" .null⟩]
  edges := [⟨none, "name", none, "write", some "name"⟩, ⟨none, "one", none, "write", some "value"⟩,
    ⟨none, "write", none, "sum", some "a"⟩, ⟨none, "write", none, "sum", some "b"⟩,
    ⟨none, "sum", none, "out", some "in"⟩]
  metadata := []

theorem writes_once_doubled : (∀ v, ¬ TransGen doubled.digraph.Arrow v v) ∧
    ∃ p, program doubled 1000 = .ok p ∧
    p.lines = [functionLine, "    vars = {}", "    results = {}",
      "    _x_value_1 = _set(vars, 'x', (1))", "    results['sum'] = (_x_value_1 + _x_value_1)",
      "    return results"] ∧
    p.places.Pairwise fun s s' => ¬ (s.Copies doubled "write" ∧ s'.Copies doubled "write") := by
  have hcycles : ∀ v, ¬ TransGen doubled.digraph.Arrow v v := fun v hv =>
    absurd ((Digraph.hasCycle_iff Graph.closed_digraph).2 ⟨v, hv⟩) (by decide)
  have hwrite : IsWrite ⟨"write", none, .operator "set_assign" none []⟩ "set_assign" :=
    ⟨rfl, by decide⟩
  have hnode : doubled.node? "write" = some ⟨"write", none, .operator "set_assign" none []⟩ := rfl
  have hlines : (program doubled 1000).map Program.lines = .ok [functionLine, "    vars = {}",
      "    results = {}", "    _x_value_1 = _set(vars, 'x', (1))",
      "    results['sum'] = (_x_value_1 + _x_value_1)", "    return results"] := by decide +kernel
  obtain ⟨p, hp, hassigned⟩ := map_eq_ok_iff.1 hlines
  have honce := (writes_once (by decide) hcycles (by decide) hnode hwrite (by decide) 1000).1 p hp
  exact ⟨hcycles, p, hp, hassigned, honce.2.1⟩

/-- A variable that is written, and the written value put out twice, one output after the other. -/
def echoed : Graph where
  nodes := [⟨"name", none, .const (.str "x") .string none⟩,
    ⟨"one", none, .const (.num (.int 1)) .number none⟩,
    ⟨"write", none, .operator "set_assign" none []⟩, ⟨"first", none, .output "a" .null⟩,
    ⟨"second", none, .output "b" .null⟩]
  edges := [⟨none, "name", none, "write", some "name"⟩, ⟨none, "one", none, "write", some "value"⟩,
    ⟨none, "write", none, "first", some "in"⟩, ⟨none, "first", none, "second", some "in"⟩]
  metadata := []

theorem write_repeated : (∀ n ∈ echoed.nodes, n.isLoop = false) ∧
    (∀ v, ¬ TransGen echoed.digraph.Arrow v v) ∧ echoed.ids.Nodup ∧
    (program echoed 1000).map Program.lines = .ok [functionLine, "    vars = {}",
      "    results = {}", "    results['a'] = _set(vars, 'x', (1))",
      "    results['b'] = _set(vars, 'x', (1))", "    return results"] := by
  refine ⟨by decide, fun v hv => ?_, by decide, by decide +kernel⟩
  exact absurd ((Digraph.hasCycle_iff Graph.closed_digraph).2 ⟨v, hv⟩) (by decide)

end NodeFlow.Code