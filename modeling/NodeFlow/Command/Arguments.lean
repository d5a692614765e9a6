import NodeFlow.Command.Files

/-!
# Command lines

The commands of the program and how they are given: general options, the name of a command, and its
own options and files in any order. An option with a value takes the next word as that value, or has
it after an equals sign; of several the last counts. Two dashes end the options.
-/

namespace NodeFlow

/-- What the program is asked to do. -/
inductive Command where
  /-- Makes the directories of a project. -/
  | init
  /-- Writes a bundled graph to a file, named as asked or after the graph. -/
  | bundled (name : String) (fileName : Option String) (directory : FilePath)
  /-- Reports on a graph. -/
  | validate (file : FilePath)
  /-- Shows the plan of a graph. -/
  | explain (file : FilePath)
  /-- Shows the results of a graph for a record, or the values of all its nodes. -/
  | run (file : FilePath) (record settings : Option FilePath) (all : Bool)
  /-- Generates the code of a graph and shows it or writes it to a file. -/
  | compile (file : FilePath) (out settings : Option FilePath)
  /-- Lists the operators. -/
  | operators
  /-- Lists the fields of a record. -/
  | fields (record settings : Option FilePath)
deriving DecidableEq, Repr

/-- A command, and whether all messages are to be logged. -/
structure Invocation where
  verbose : Bool
  command : Command
deriving DecidableEq, Repr

/-- Why a command line asks for no command. -/
inductive NoCommand where
  /-- It asks for help. -/
  | help
  /-- It is not understood. -/
  | misused
deriving DecidableEq, Repr

namespace Command

/-- The options that may be given. -/
structure Options where
  /-- The options with a value. -/
  valued : List String
  /-- The options without one. -/
  flags : List String
  /-- The letters that may follow a single dash. -/
  letters : List Char

/-- What has been given. -/
structure Given where
  values : List (String × String)
  flags : List String
  words : List String

namespace Given

/-- The value of an option. -/
def value? (g : Given) (name : String) : Option String :=
  ((g.values.filter (·.1 == name)).getLast?).map (·.2)

/-- The path that an option gives. -/
def path? (g : Given) (name : String) : Option FilePath := (g.value? name).map .ofText

/-- Whether an option is given. -/
def has (g : Given) (name : String) : Bool := g.flags.contains name

end Given

/-- The option without a value that asks for help. -/
def helpFlag : String := "--help"

/-- The form of a word among options. -/
inductive Word where
  | plain
  | flags (names : List String)
  | valued (name : String) (value : Option String)
  | unknown

/-- The form of a word. A word that begins with a dash is an option, a lone dash is not. -/
def Options.word (o : Options) (s : String) : Word :=
  match s.toList with
  | '-' :: c :: rest =>
    let name := String.ofList (s.toList.takeWhile (· != '='))
    let value := match s.toList.dropWhile (· != '=') with
      | _ :: value => some (String.ofList value)
      | [] => none
    if o.valued.contains name then .valued name value
    else if o.flags.contains name then if value.isNone then .flags [name] else .unknown
    else if c != '-' && (c :: rest).all o.letters.contains then
      .flags ((c :: rest).map fun letter => String.ofList ['-', letter])
    else .unknown
  | _ => .plain

/-- Sorts the words of a command line; `none` when an option is not understood. If options come
first only, all words from the first plain one on are left as they are. -/
def Options.sort (o : Options) (optionsFirst : Bool) : List String → Option Given
  | [] => some ⟨[], [], []⟩
  | s :: rest =>
    if s = "--" then some ⟨[], [], rest⟩
    else
      match o.word s with
      | .plain =>
        if optionsFirst then some ⟨[], [], s :: rest⟩
        else (sort o optionsFirst rest).map fun g => { g with words := s :: g.words }
      | .flags names =>
        (sort o optionsFirst rest).map fun g => { g with flags := names ++ g.flags }
      | .valued name (some value) =>
        (sort o optionsFirst rest).map fun g => { g with values := (name, value) :: g.values }
      | .valued name none =>
        match rest with
        | [] => none
        | value :: rest =>
          (sort o optionsFirst rest).map fun g => { g with values := (name, value) :: g.values }
      | .unknown => none

/-- The options before the name of a command. -/
def generalOptions : Options := ⟨[], [helpFlag, "--verbose"], ['v']⟩

/-- The options with and without a value of the command of a name. -/
def optionsOf? (name : String) : Option Options :=
  let options (valued flags : List String) : Options := ⟨valued, helpFlag :: flags, []⟩
  match name with
  | "init" | "ops" | "validate" | "explain" => some (options [] [])
  | "template" => some (options ["--name", "--out-name", "--outdir"] [])
  | "run" => some (options ["--record", "--config"] ["--all"])
  | "compile" => some (options ["--out", "--config"] [])
  | "fields" => some (options ["--record", "--config"] [])
  | _ => none

/-- The command of a name with what was given for it. -/
def ofGiven? (name : String) (g : Given) : Option Command :=
  match name, g.words.map FilePath.ofText with
  | "init", [] => some .init
  | "template", [] =>
    (g.value? "--name").map fun graph =>
      .bundled graph (g.value? "--out-name") ((g.path? "--outdir").getD (.ofText "graphs"))
  | "validate", [file] => some (.validate file)
  | "explain", [file] => some (.explain file)
  | "run", [file] => some (.run file (g.path? "--record") (g.path? "--config") (g.has "--all"))
  | "compile", [file] => some (.compile file (g.path? "--out") (g.path? "--config"))
  | "ops", [] => some .operators
  | "fields", [] => some (.fields (g.path? "--record") (g.path? "--config"))
  | _, _ => none

end Command

/-- Reads a command line. -/
def Invocation.ofWords (words : List String) : Except NoCommand Invocation := do
  let some general := Command.generalOptions.sort true words | throw .misused
  if general.has Command.helpFlag then throw .help
  let name :: rest := general.words | throw .misused
  let some options := Command.optionsOf? name | throw .misused
  let some given := options.sort false rest | throw .misused
  if given.has Command.helpFlag then throw .help
  let some command := Command.ofGiven? name given | throw .misused
  return ⟨general.has "--verbose" || general.has "-v", command⟩

end NodeFlow
