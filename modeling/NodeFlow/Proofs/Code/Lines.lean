import NodeFlow.Code.Layout
import NodeFlow.Proofs.Code.Building

/-!
# The lines of a program, with what they do

The lines of the function of a program, each kept with the part of the program that it belongs to,
the statement on it, and the names that its expressions are written over (`Program.layout`).  Their
texts are the lines of the program (`Program.lines_eq`).
-/

namespace NodeFlow.Code

/-! ### Lines -/

/-- A statement, as far as it assigns. -/
inductive Statement where
  | assign (target expression : String)
  | increment (target : String)
  | other (text : String)
deriving DecidableEq

/-- The variable that a statement gives a value. -/
def Statement.target? : Statement → Option String
  | assign target _ | increment target => some target
  | other _ => none

def Statement.text : Statement → String
  | assign target expression =>
    target ++ " = " ++ if expression == cycleMark then "None  # cycle" else expression
  | increment target => target ++ " += 1"
  | other text => text

/-- The part of a program that a line belongs to. -/
inductive Region where
  /-- What every function has. -/
  | frame
  /-- The free temporaries. -/
  | free
  /-- The result of a free root. -/
  | result
  /-- The block of a loop for the root of a number. -/
  | block (number : Nat) (loop : String)

/-- A line: how deep it is indented, where it belongs, its statement, and the names that the
expressions in it are written over. -/
structure Line where
  depth : Nat
  region : Region
  statement : Statement
  bound : Bound

def Line.text (l : Line) : String := indentation l.depth ++ l.statement.text

/-! ### The lines of a program -/

/-- The line of an assignment. -/
def Assignment.layout (depth : Nat) (region : Region) (a : Assignment) : Line :=
  ⟨depth, region, .assign a.name a.expression, a.bound⟩

/-- The line that gives a temporary its first value, before the passes of a loop. -/
def Assignment.initial (region : Region) (a : Assignment) : Line :=
  ⟨1, region, .assign a.name nothing, []⟩

def testLayout (region : Region) (bound : Bound) (test : Option String)
    (consequence : List Statement) : List Line :=
  match test with
  | none => []
  | some text => ⟨2, region, .other ("if bool(" ++ text ++ "):"), bound⟩ ::
    consequence.map fun s => ⟨3, region, s, []⟩

namespace LoopBlock

variable (b : LoopBlock) (number : Nat)

/-- The region of a block. -/
def region : Region := .block number b.loop

/-- The lines up to the head of the loop. -/
def opening : List Line :=
  b.body.map (Assignment.initial (b.region number)) ++
    [⟨1, b.region number, .assign "_i" "0", []⟩,
      ⟨1, b.region number, .assign "_last" nothing, []⟩,
      ⟨1, b.region number,
        .other ("while (bool(" ++ b.condition ++ ")) and _i < int(" ++ b.cap ++ "):"), []⟩]

/-- The lines of a pass before the temporaries. -/
def passLayout : List Line :=
  b.passInputs.map fun text => ⟨2, b.region number, .assign "_" text, []⟩

/-- The lines of a pass after the temporaries. -/
def closing : List Line :=
  testLayout (b.region number) b.bound b.continueTest [.increment "_i", .other "continue"] ++
    testLayout (b.region number) b.bound b.breakTest [.other "break"] ++
    [⟨2, b.region number, .assign "_val" b.result, b.bound⟩,
      ⟨2, b.region number, .other "if _val is not None:", []⟩,
      ⟨3, b.region number, .assign "_last" "_val", []⟩,
      ⟨2, b.region number, .increment "_i", []⟩]

/-- The lines of a block. -/
def layout : List Line :=
  b.opening number ++ b.passLayout number ++ b.body.map (Assignment.layout 2 (b.region number)) ++
    b.closing number ++ [⟨1, b.region number, .assign (resultTarget b.root) "_last", []⟩]

end LoopBlock

/-- The lines of the code of a root. -/
def RootCode.layout (free : Bound) (code : RootCode) (number : Nat) : List Line :=
  match code with
  | direct root expression => [⟨1, .result, .assign (resultTarget root) expression, free⟩]
  | looped block => block.layout number

/-- The lines of the codes of roots, numbered from the given number on. -/
def rootsLayout (free : Bound) : Nat → List RootCode → List Line
  | _, [] => []
  | number, code :: rest => code.layout free number ++ rootsLayout free (number + 1) rest

/-- The lines below the first line of the function. -/
def Program.layout (p : Program) : List Line :=
  if p.results.isEmpty then
    [⟨1, .frame, .other "# No outputs; add an Output node and connect it.", []⟩,
      ⟨1, .frame, .other "return \x7b\x7d", []⟩]
  else
    [⟨1, .frame, .assign "vars" "\x7b\x7d", []⟩, ⟨1, .frame, .assign "results" "\x7b\x7d", []⟩] ++
      p.free.map (Assignment.layout 1 .free) ++ rootsLayout p.freeBound 0 p.results ++
      [⟨1, .frame, .other "return results", []⟩]

/-! ### Their texts -/

variable {region : Region} {bound : Bound}

theorem text_assign (depth : Nat) (target expression : String) :
    Line.text ⟨depth, region, .assign target expression, bound⟩ =
      assignLine depth target expression := by
  simp only [Line.text, Statement.text, assignLine, String.append_assoc]

theorem text_layout (depth : Nat) (a : Assignment) :
    (a.layout depth region).text = a.line depth :=
  text_assign depth a.name a.expression

theorem text_initial (a : Assignment) :
    (a.initial region).text = assignLine 1 a.name nothing :=
  text_assign 1 a.name nothing

theorem map_text_testLayout (test : Option String) {consequence : List Statement}
    {lines : List String} (h : consequence.map (fun s => indentation 3 ++ s.text) = lines) :
    (testLayout region bound test consequence).map Line.text = testLines test lines := by
  subst h
  cases test with
  | none => rfl
  | some text =>
    have htest : indentation 2 ++ "if bool(" = "        if bool(" := by decide
    simp only [testLayout, testLines, Line.text, Statement.text, ← htest, List.map_cons,
      List.map_map, Function.comp_def, String.append_assoc]

theorem LoopBlock.map_text_opening (b : LoopBlock) (number : Nat) :
    (b.opening number).map Line.text = b.body.map (fun a => assignLine 1 a.name nothing) ++
      ["    _i = 0", "    _last = None",
        "    while (bool(" ++ b.condition ++ ")) and _i < int(" ++ b.cap ++ "):"] := by
  have hhead : indentation 1 ++ "while (bool(" = "    while (bool(" := by decide
  simp only [opening, List.map_append, List.map_map, Function.comp_def, text_initial, ← hhead,
    String.append_assoc]
  rfl

theorem LoopBlock.map_text_passLayout (b : LoopBlock) (number : Nat) :
    (b.passLayout number).map Line.text = b.passInputs.map (assignLine 2 "_") := by
  simp only [passLayout, List.map_map, Function.comp_def, text_assign]

theorem LoopBlock.map_text_closing (b : LoopBlock) (number : Nat) :
    (b.closing number).map Line.text =
      testLines b.continueTest ["            _i += 1", "            continue"] ++
        testLines b.breakTest ["            break"] ++
        [assignLine 2 "_val" b.result, "        if _val is not None:", "            _last = _val",
          "        _i += 1"] := by
  have hcontinue : [Statement.increment "_i", .other "continue"].map
      (fun s => indentation 3 ++ s.text) = ["            _i += 1", "            continue"] := by
    decide
  have hbreak : [Statement.other "break"].map (fun s => indentation 3 ++ s.text) =
      ["            break"] := by
    decide
  rw [closing, List.map_append, List.map_append, map_text_testLayout _ hcontinue,
    map_text_testLayout _ hbreak]
  rfl

theorem LoopBlock.map_text_layout (b : LoopBlock) (number : Nat) :
    (b.layout number).map Line.text = b.lines := by
  have hindent : indentation 1 = "    " := by decide
  have hresult : assignLine 1 (resultTarget b.root) "_last" =
      "    " ++ resultTarget b.root ++ " = _last" := by
    rw [assignLine, hindent, String.append_assoc, String.append_assoc, String.append_assoc]
    rfl
  simp only [layout, lines, List.map_append, map_text_opening, map_text_passLayout,
    map_text_closing, List.map_map, Function.comp_def, text_layout, List.map_cons, List.map_nil,
    text_assign, hresult, List.append_assoc, List.cons_append, List.nil_append]

theorem RootCode.map_text_layout (free : Bound) (code : RootCode) (number : Nat) :
    (code.layout free number).map Line.text = code.lines := by
  cases code with
  | direct root expression => exact congrArg (· :: []) (text_assign 1 _ _)
  | looped block => exact block.map_text_layout number

theorem map_text_rootsLayout (free : Bound) (number : Nat) (codes : List RootCode) :
    (rootsLayout free number codes).map Line.text = codes.flatMap RootCode.lines := by
  induction codes generalizing number with
  | nil => rfl
  | cons code rest ih =>
    rw [rootsLayout, List.map_append, List.flatMap_cons, code.map_text_layout, ih]

theorem Program.lines_eq (p : Program) : p.lines = functionLine :: p.layout.map Line.text := by
  rw [lines, layout]
  cases h : p.results.isEmpty with
  | true => rfl
  | false =>
    simp only [Bool.false_eq_true, if_false, List.map_append, map_text_rootsLayout,
      List.map_map, Function.comp_def, text_layout]
    rfl

/-! ### Generated code -/

variable {g : Graph} {cap : Nat} {p : Program}

theorem generate_of_program (h : program g cap = .ok p) :
    generate g cap = joinLines (header g ++ functionLine :: p.layout.map Line.text) := by
  rw [generate, h, ← Program.lines_eq]

theorem generate_of_error (h : program g cap = .error ⟨⟩) : generate g cap = fallback := by
  rw [generate, h]

end NodeFlow.Code
