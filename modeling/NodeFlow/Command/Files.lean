import NodeFlow.Text.Segments

/-!
# Files

What the commands need of a file system: to read a file, to write one, and to make directories.
Commands are written against these three operations; a tree of files kept as a value has them, too.
-/

namespace NodeFlow

/-- The name of a file or a directory: from the root of the file system or from the present
directory, and the names of the steps. -/
structure FilePath where
  root : String
  steps : List String
deriving DecidableEq, Repr

namespace FilePath

/-- The path that a text stands for. Empty steps and steps that stay do not count. -/
def ofText (s : String) : FilePath :=
  let steps := ((Text.segments '/' s.toList).map String.ofList).filter fun step =>
    step != "" && step != "."
  let slashes := (s.toList.takeWhile (· == '/')).length
  ⟨if slashes = 0 then "" else if slashes = 2 then "//" else "/", steps⟩

/-- A path as a text. -/
def text (p : FilePath) : String :=
  if p.root.isEmpty && p.steps.isEmpty then "." else p.root ++ "/".intercalate p.steps

/-- The path below a directory that a text stands for. -/
def child (p : FilePath) (s : String) : FilePath :=
  let q := ofText s
  if q.root.isEmpty then { p with steps := p.steps ++ q.steps } else q

/-- The directory that a path lies in. -/
def parent (p : FilePath) : FilePath := { p with steps := p.steps.dropLast }

end FilePath

/-- Why a file cannot be read or written, or a directory made. -/
inductive FileError where
  | missing
  | isDirectory
  | notDirectory
  | taken
  /-- Anything else, such as a lack of rights. -/
  | refused
deriving DecidableEq, Repr

/-- The operations on files that the commands use. -/
structure FileSystem (m : Type → Type) where
  /-- The text of a file. -/
  read : FilePath → ExceptT FileError m String
  /-- Gives a file a text. Its directory has to be there. -/
  write : FilePath → String → ExceptT FileError m Unit
  /-- Makes a directory and those it lies in, unless they are there. -/
  makeDirectory : FilePath → ExceptT FileError m Unit

/-! ### Trees of files -/

/-- A file with its text, or a directory. -/
inductive FileEntry where
  | directory
  | file (text : String)
deriving DecidableEq, Repr

/-- The files and directories below the present directory, each under its steps. -/
abbrev FileTree := List (List String × FileEntry)

namespace FileTree

/-- What is at some steps. -/
def entry? (t : FileTree) (steps : List String) : Option FileEntry :=
  if steps.isEmpty then some .directory else t.lookup steps

/-- The tree with an entry at some steps. -/
def put (t : FileTree) (steps : List String) (e : FileEntry) : FileTree :=
  t.filter (·.1 != steps) ++ [(steps, e)]

/-- The place to which some steps lead from a place. All on the way have to be directories. -/
def walk (t : FileTree) (place : List String) : List String → Except FileError (List String)
  | [] => .ok place
  | step :: steps =>
    match t.entry? place with
    | some .directory =>
      walk t (if step = ".." then place.dropLast else place ++ [step]) steps
    | some (.file _) => .error .notDirectory
    | none => .error .missing

/-- The place of a path. Nothing is known of places outside the present directory. -/
def place (t : FileTree) (p : FilePath) : Except FileError (List String) :=
  if p.root.isEmpty then t.walk [] p.steps else .error .missing

/-- The text of a file. -/
def read (t : FileTree) (p : FilePath) : Except FileError String := do
  match t.entry? (← t.place p) with
  | some (.file text) => return text
  | some .directory => throw .isDirectory
  | none => throw .missing

/-- The tree in which a file has a text. -/
def write (t : FileTree) (p : FilePath) (text : String) : Except FileError FileTree := do
  let steps ← t.place p
  match t.entry? steps with
  | some .directory => throw .isDirectory
  | _ => return t.put steps (.file text)

/-- The tree with the directories on the way along some steps from a place. -/
def makeAlong (t : FileTree) (place : List String) : List String → Except FileError FileTree
  | [] => .ok t
  | step :: steps =>
    let next := if step = ".." then place.dropLast else place ++ [step]
    match t.entry? next with
    | some .directory => makeAlong t next steps
    | some (.file _) => .error (if steps.isEmpty then .taken else .notDirectory)
    | none => makeAlong (t.put next .directory) next steps

/-- The tree with a directory and those it lies in. -/
def makeDirectory (t : FileTree) (p : FilePath) : Except FileError FileTree :=
  if p.root.isEmpty then t.makeAlong [] p.steps else .error .refused

/-- The operations on a tree of files. -/
def system : FileSystem (StateM FileTree) where
  read p := do liftExcept ((← getThe FileTree).read p)
  write p text := do set (← liftExcept ((← getThe FileTree).write p text))
  makeDirectory p := do set (← liftExcept ((← getThe FileTree).makeDirectory p))
where
  /-- A result as a step that changes nothing. -/
  liftExcept {α : Type} (x : Except FileError α) : ExceptT FileError (StateM FileTree) α :=
    ExceptT.mk (pure x)

end FileTree

end NodeFlow
