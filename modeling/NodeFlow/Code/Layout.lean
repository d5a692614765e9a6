import NodeFlow.Code.Program

/-!
# The text of a program

The lines of generated code: a header with what every program needs, and one function that takes a
record and gives the results.
-/

namespace NodeFlow.Code

/-! ### Lines that every program has -/

/-- The first line. -/
def titleLine : String := "# Generated by nodes2py."

/-- The definitions that expressions refer to. -/
def commonLines : List String := [
  "import math",
  "",
  "",
  "def get_nested(row, path):",
  "    cur = row",
  "    for key in str(path).split('.'):",
  "        if not isinstance(cur, dict):",
  "            return None",
  "        cur = cur.get(key)",
  "    return cur",
  "",
  "",
  "def _set(vars, name, val):",
  "    vars[name] = val",
  "    return val",
  "",
  "",
  "def _get(vars, name, default):",
  "    return vars.get(name, default)",
  "",
  ""]

/-- The warning about division. -/
def divisionNote : List String := [
  "# Divide nodes compile to an unguarded '/': a zero divisor raises ZeroDivisionError",
  "# here, while the editor preview shows None for the same input."]

/-- Whether a graph divides. -/
def divides (g : Graph) : Bool := g.nodes.any (·.operator? == some Operator.divide.id)

/-- The lines above the function. -/
def header (g : Graph) : List String :=
  titleLine :: (if divides g then divisionNote else []) ++ commonLines

/-! ### Statements -/

/-- The indentation of a depth. -/
def indentation (depth : Nat) : String := String.ofList (List.replicate (4 * depth) ' ')

/-- A line that assigns an expression. A mark of a cycle that is all of it loses its brackets. -/
def assignLine (depth : Nat) (target expression : String) : String :=
  indentation depth ++ target ++ " = "
    ++ if expression == cycleMark then "None  # cycle" else expression

/-- The place of a root's result. -/
def resultTarget (root : Root) : String := "results[" ++ Text.quote root.label ++ "]"

/-- The line of an assignment. -/
def Assignment.line (depth : Nat) (a : Assignment) : String := assignLine depth a.name a.expression

/-- The lines that leave a pass when a test holds. -/
def testLines (test : Option String) (consequence : List String) : List String :=
  match test with
  | none => []
  | some text => ("        if bool(" ++ text ++ "):") :: consequence

/-- The lines of a loop. -/
def LoopBlock.lines (b : LoopBlock) : List String :=
  b.body.map (fun a => assignLine 1 a.name nothing)
    ++ ["    _i = 0", "    _last = None",
      "    while (bool(" ++ b.condition ++ ")) and _i < int(" ++ b.cap ++ "):"]
    ++ b.passInputs.map (assignLine 2 "_")
    ++ b.body.map (Assignment.line 2)
    ++ testLines b.continueTest ["            _i += 1", "            continue"]
    ++ testLines b.breakTest ["            break"]
    ++ [assignLine 2 "_val" b.result,
      "        if _val is not None:",
      "            _last = _val",
      "        _i += 1",
      "    " ++ resultTarget b.root ++ " = _last"]

/-- The lines of a root's code. -/
def RootCode.lines : RootCode → List String
  | .direct root expression => [assignLine 1 (resultTarget root) expression]
  | .looped block => block.lines

/-- The first line of the function. -/
def functionLine : String := "def compute(row):"

/-- The lines of a function that gives no results, with the reason why. -/
def emptyFunction (reason : String) : List String :=
  [functionLine, "    # " ++ reason, "    return \x7b\x7d"]

/-- The lines of the function. -/
def Program.lines (p : Program) : List String :=
  if p.results.isEmpty then emptyFunction "No outputs; add an Output node and connect it."
  else
    [functionLine, "    vars = \x7b\x7d", "    results = \x7b\x7d"]
      ++ p.free.map (Assignment.line 1)
      ++ p.results.flatMap RootCode.lines
      ++ ["    return results"]

/-- Lines as a text, each with its end. -/
def joinLines (lines : List String) : String := "\n".intercalate lines ++ "\n"

/-- The lines of the code that is generated where a program cannot be written. -/
def fallbackLines : List String :=
  titleLine :: commonLines ++ emptyFunction "Code generation failed for this graph."

/-- The code that is generated where a program cannot be written. -/
def fallback : String := joinLines fallbackLines

/-- The generated code of a graph whose loops take at most so many passes unless they say
otherwise. -/
def generate (g : Graph) (defaultCap : Nat) : String :=
  match program g defaultCap with
  | .ok p => joinLines (header g ++ p.lines)
  | .error _ => fallback

end NodeFlow.Code
