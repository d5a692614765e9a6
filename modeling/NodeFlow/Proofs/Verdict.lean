import NodeFlow.Proofs.Code.Uncut
import NodeFlow.Proofs.Code.Unmarked
import NodeFlow.Proofs.Graph.Report
import NodeFlow.Proofs.Preview.Evaluate

/-!
# The verdict that a graph is acyclic

A report looks for cycles along all edges between nodes, whether or not they count.  What evaluation
and generated code follow is contained in that, so where a report finds none, neither of them ever
comes upon one (`acyclic_verdict`).
-/

namespace NodeFlow

open Code Preview Text

/-- **A graph that is reported as acyclic is never cut short.**  For every record, whatever was
asked before, each question for a node is answered with a value, and evaluation marks no node as
failed.  After any queries, the mark of a cycle stands in no expression that is given.  No rendering
over any bound names meets a node again, nor does the expression for a node's own variable: either
goes on to its end, or to a constant that cannot be written.  So the generated code is made of lines
in none of which the mark stands, and none assigns the mark alone; and so is the code that stands in
for it where a constant cannot be written. -/
theorem acyclic_verdict {g : Graph}
    (h : "OK: Graph is acyclic." ∈ g.report.map Finding.message) :
    (∀ (record : Value) (before : List String) (id : String), ∃ v,
      ((ask ⟨g, record, []⟩ id).run (asked ⟨g, record, []⟩ before)).1 = .ok v) ∧
    (∀ record, (settle g record).2 = []) ∧
    (∀ (before : List Key) (key : Key) (text : String),
      ((inline g key).run (inlined g before)).1 = .ok text → ¬ Occurs cycleMark text) ∧
    (∀ (bound : Bound) (key : Key), ∃ memo,
      EndsAt (Uncut g bound []) (Unfinished g bound []) (some key) [] (render g bound key, memo)) ∧
    (∀ (bound : Bound) (id : String) (n : Node), g.node? id = some n →
      ∃ outcome memo,
        Ends (Uncut g bound [id]) (Unfinished g bound [id]) ((g.origin n).wires.map wanted) []
          (outcome, memo) ∧
        assignment g bound id = outcome >>= written none (g.origin n)) ∧
    ∀ cap : Nat,
      (∀ p, program g cap = .ok p →
        let lines := p.layout
        let texts := header g ++ functionLine :: lines.map Line.text
        generate g cap = joinLines texts ∧
        (∀ text ∈ texts, ¬ Occurs cycleMark text) ∧
        ∀ line ∈ lines, ∀ target expression, line.statement = .assign target expression →
          ¬ Occurs cycleMark expression) ∧
      (program g cap = .error ⟨⟩ →
        generate g cap = joinLines fallbackLines ∧
        ∀ text ∈ fallbackLines, ¬ Occurs cycleMark text) := by
  have hg : g.Acyclic := Graph.acyclic_of_arrow (Graph.mem_messages_acyclic_iff.1 h)
  have unmarked {text : String} (htext : OneLine text) : ¬ Occurs cycleMark text :=
    htext.not_occurs (by decide)
  refine ⟨fun record before id => ?_, fun record => ?_, fun before key text htext => ?_,
    uncut_render hg, fun bound id n => uncut_assignment hg bound,
    fun cap => ⟨fun p hp => ⟨generate_of_program hp, ?_, ?_⟩, fun herror => ?_⟩⟩
  · obtain ⟨answer, isAnswer, runs⟩ := exists_run_ask (s := ⟨g, record, []⟩) nofun id
    obtain ⟨memo, run, -⟩ := runs before
    rw [run]
    exact ⟨_, isAnswer.value (hg.not_circular id)⟩
  · refine List.eq_nil_iff_forall_not_mem.2 fun id hid => ?_
    exact hg.not_circular id ((settled g record).failed id hid)
  · exact unmarked (((right_inline (right_inlined g before) key).1 text htext).oneLine hg)
  · refine List.forall_mem_append.2 ⟨fun text ht => unmarked (oneLine_header g text ht), ?_⟩
    refine List.forall_mem_cons.2 ⟨unmarked (by decide), List.forall_mem_map.2 fun line hline => ?_⟩
    exact unmarked (Line.oneLine_text ((isProgram hp).plain hg line hline))
  · intro line hline target expression hstatement
    have hplain := (isProgram hp).plain hg line hline
    rw [hstatement] at hplain
    exact unmarked hplain.2
  · exact ⟨generate_of_error herror, fun text ht => unmarked (oneLine_fallbackLines text ht)⟩

theorem acyclic_verdict_shared :
    "OK: Graph is acyclic." ∈ shared.report.map Finding.message ∧
    (∀ record, ∃ v, ((ask ⟨shared, record, []⟩ "each").run
      (asked ⟨shared, record, []⟩ ["out", "loop"])).1 = .ok v) ∧
    ∃ p, program shared 10 = .ok p ∧
      ∀ text ∈ header shared ++ functionLine :: p.layout.map Line.text,
        ¬ Occurs cycleMark text := by
  have h : "OK: Graph is acyclic." ∈ shared.report.map Finding.message := by decide +kernel
  obtain ⟨asked, -, -, -, -, generated⟩ := acyclic_verdict h
  obtain ⟨hprogram, -⟩ := generated 10
  have hlength : (program shared 10).map (·.results.length) = .ok 2 := by decide +kernel
  obtain ⟨p, hp, -⟩ := Outcome.map_eq_ok_iff.1 hlength
  exact ⟨h, fun record => asked record ["out", "loop"] "each", p, hp, (hprogram p hp).2.1⟩

end NodeFlow
