import NodeFlow.Catalog
import NodeFlow.Command.Arguments
import NodeFlow.Graph.Bundled
import NodeFlow.Graph.Document
import NodeFlow.Graph.Plan
import NodeFlow.Graph.Report
import NodeFlow.Graph.Roots
import NodeFlow.Load
import NodeFlow.Session.Basic
import NodeFlow.Value.Path

/-!
# Performing commands

What each command reads, writes and shows. A command that fails shows nothing; some commands succeed
in showing that something is wrong.
-/

namespace NodeFlow

/-- Something that a command shows. Panels and messages may hold marks for colours. -/
inductive Display where
  | table (title : String) (columns : List String) (rows : List (List String))
  | panel (text : String)
  | code (text : String)
  | message (text : String)
  /-- Lines as they are. -/
  | lines (text : String)
deriving DecidableEq, Repr

/-- What a command shows, and whether all is well. -/
structure Reply where
  display : Display
  isWell : Bool

/-- Why a command fails. -/
inductive CommandError where
  | file (error : FileError)
  | load (error : LoadError)
  | evaluation (fault : EvalFault)
  /-- An integer has too many digits for the text it should be part of. -/
  | unwritable
  /-- The settings name no level of messages. -/
  | logLevel
  /-- A text that should be written is broken. -/
  | brokenText
deriving DecidableEq, Repr

/-- The names of the levels of messages. -/
def logLevels : List String :=
  ["CRITICAL", "FATAL", "ERROR", "WARN", "WARNING", "INFO", "DEBUG", "NOTSET"]

/-- The capital of a letter, where that is an ASCII letter. -/
def capital (c : Char) : Char :=
  if c = 'ı' then 'I' else if c = 'ſ' then 'S' else c.toUpper

/-- Whether a text names a level of messages, in whichever case. -/
def isLogLevel (s : String) : Bool := logLevels.contains (String.ofList (s.toList.map capital))

namespace Command

variable {m : Type → Type} [Monad m]

/-- A step of a command. -/
abbrev Step (m : Type → Type) (α : Type) := ExceptT CommandError m α

/-- An operation on files as a step of a command. -/
def onFiles {α : Type} (x : ExceptT FileError m α) : Step m α := x.adapt .file

/-- A result as a step of a command. -/
def given {ε α : Type} (wrap : ε → CommandError) (x : Except ε α) : Step m α :=
  ExceptT.mk (pure (x.mapError wrap))

variable (files : FileSystem m)

/-- The graph in a file. -/
def loadGraph (file : FilePath) : Step m Graph := do
  given .load (Graph.ofText (← onFiles (files.read file)))

/-- The settings in a file, or the default ones. Unless all messages are logged, they have to name a
level of messages. -/
def loadSettings (verbose : Bool) (file : Option FilePath) : Step m Settings := do
  let settings ← match file with
    | none => pure default
    | some file => given .load (Settings.ofText (← onFiles (files.read file)))
  if !verbose && !isLogLevel settings.logLevel then throw .logLevel
  return settings

/-- The record in a file; nothing when there is no file. -/
def loadRecord (file : Option FilePath) : Step m Value :=
  match file with
  | none => pure .null
  | some file => do
    given (fun e => .load (.document e)) (Document.read (← onFiles (files.read file)))

/-- A value as it is shown in a table. -/
def shown (v : Value) : Spelling := .ofText v.isWritable v.display

/-- A table of two columns. -/
def pairTable (title left right : String) (rows : List (String × String)) : Display :=
  .table title [left, right] (rows.map fun (a, b) => [a, b])

/-- Makes the directories of a project. -/
def performInit : Step m Reply := do
  for name in ["graphs", "records", "build"] do
    onFiles (files.makeDirectory (.ofText name))
  return ⟨.panel "[bold green]Initialized[/] directories: graphs/, records/, build/", true⟩

/-- Writes a bundled graph to a file. -/
def performBundled (name : String) (fileName : Option String) (directory : FilePath) :
    Step m Reply := do
  match Graph.bundled name with
  | .error e => return ⟨.message ("[red]" ++ e.message ++ "[/]"), false⟩
  | .ok g =>
    onFiles (files.makeDirectory directory)
    let file := directory.child (Text.orElse (fileName.getD "") name ++ ".yaml")
    onFiles (files.write file g.toText)
    return ⟨.panel ("Saved template [bold]" ++ name ++ "[/] to [cyan]" ++ file.text ++ "[/]"), true⟩

/-- Reports on a graph. -/
def performValidate (file : FilePath) : Step m Reply := do
  let g ← loadGraph files file
  let rows := g.report.map fun f => (Finding.severityWord f.severity, f.message)
  return ⟨pairTable "Validation Report" "Status" "Message" rows, g.isSound⟩

/-- Shows the plan of a graph. -/
def performExplain (file : FilePath) : Step m Reply := do
  let g ← loadGraph files file
  let plan ← given (fun _ => .unwritable) g.plan
  return ⟨.lines plan, true⟩

/-- Shows the results of a graph for a record, or the values of all its nodes. -/
def performRun (verbose : Bool) (file : FilePath) (record settings : Option FilePath) (all : Bool) :
    Step m Reply := do
  let settings ← loadSettings files verbose settings
  let g ← loadGraph files file
  let record ← loadRecord files record
  let record := if record = .null then settings.sample else record
  let values ← given .evaluation (Preview.evaluate g record settings.defaultMaxPasses)
  let valueOf (id : String) : Value := (values.lookup id).getD .null
  let rows := if all then g.ids.map fun id => (id, valueOf id)
    else g.roots.map fun r => (r.label, valueOf r.node)
  let texts ← given (fun _ => .unwritable) (rows.mapM fun row => shown row.2)
  let head := if all then "Node" else "Result"
  return ⟨pairTable "Preview" head "Value" ((rows.map (·.1)).zip texts), true⟩

/-- Generates the code of a graph and shows it or writes it to a file. -/
def performCompile (verbose : Bool) (file : FilePath) (out settings : Option FilePath) :
    Step m Reply := do
  let g ← loadGraph files file
  let settings ← loadSettings files verbose settings
  let code := Code.generate g settings.defaultMaxPasses
  match out with
  | none => return ⟨.code code, true⟩
  | some out =>
    onFiles (files.makeDirectory out.parent)
    if Text.isBroken code then
      onFiles (files.write out "")
      throw .brokenText
    onFiles (files.write out code)
    return ⟨.panel ("Wrote [cyan]" ++ out.text ++ "[/]"), true⟩

/-- The ports of an operator in a table. -/
def portsText (ports : List Port) : String :=
  ", ".intercalate (ports.map fun p => p.id ++ ":" ++ p.dtype.name)

/-- The table of the operators. -/
def operatorTable : Display :=
  .table "Operators" ["Id", "Label", "Inputs", "Output", "Help"]
    (Catalog.operators.map fun o =>
      [o.id, o.label, portsText o.inputs, portsText o.outputs, o.help])

/-- Lists the fields of a record. -/
def performFields (verbose : Bool) (record settings : Option FilePath) : Step m Reply := do
  let given ← loadRecord files record
  let record ← if given = .null then do
      pure (← loadSettings files verbose settings).sample
    else pure given
  let rows := (record.leafPaths "").map fun (path, dtype) => (path, dtype.name)
  return ⟨pairTable "Fields" "Path" "Type" rows, true⟩

end Command

/-- Performs a command. -/
def Invocation.perform {m : Type → Type} [Monad m] (files : FileSystem m) (i : Invocation) :
    ExceptT CommandError m Reply :=
  match i.command with
  | .init => Command.performInit files
  | .bundled name fileName directory => Command.performBundled files name fileName directory
  | .validate file => Command.performValidate files file
  | .explain file => Command.performExplain files file
  | .run file record settings all =>
    Command.performRun files i.verbose file record settings all
  | .compile file out settings => Command.performCompile files i.verbose file out settings
  | .operators => pure ⟨Command.operatorTable, true⟩
  | .fields record settings => Command.performFields files i.verbose record settings

end NodeFlow
