import NodeFlow.Command.Perform

/-!
# The command line

Performs the command of the program's arguments on the files of the machine. What a command shows
goes to the standard output, without the marks for colours being read; why one fails goes to the
standard error.
-/

namespace NodeFlow.CommandLine

/-- Why an operation on files failed. -/
def fileError : IO.Error → FileError
  | .noFileOrDirectory .. => .missing
  | .alreadyExists .. => .taken
  | .inappropriateType .. => .notDirectory
  | _ => .refused

/-- An operation on the files of the machine. -/
def attempt {α : Type} (action : IO α) : ExceptT FileError IO α := do
  match ← action.toBaseIO with
  | .ok a => return a
  | .error e => throw (fileError e)

/-- The files of the machine. -/
def machineFiles : FileSystem IO where
  read p := attempt (IO.FS.readFile p.text)
  write p text := attempt (IO.FS.writeFile p.text text)
  makeDirectory p := attempt (IO.FS.createDirAll p.text)

/-- A row of a table as a line. -/
def rowText (cells : List String) : String := " | ".intercalate cells

/-- The text of what a command shows. -/
def displayText : Display → String
  | .table title columns rows => "\n".intercalate (title :: (columns :: rows).map rowText)
  | .panel text | .code text | .message text | .lines text => text

/-- Why nothing can be loaded. -/
def loadErrorText : LoadError → String
  | .document _ => "The file is no document."
  | .contents .shape => "The document is no record of named parts."
  | .contents (.issues issues) =>
    "The document has " ++ toString issues.length ++ " issues, the first of the kind "
      ++ ((issues.head?.map (·.kind.code)).getD "")

/-- Why a command failed. -/
def errorText : CommandError → String
  | .file .missing => "There is no such file."
  | .file .isDirectory => "A directory stands in place of a file."
  | .file .notDirectory => "A file stands in place of a directory."
  | .file .taken => "There is a file of that name."
  | .file .refused => "A file cannot be used."
  | .load e => loadErrorText e
  | .evaluation _ => "A value is too large."
  | .logLevel => "The settings name no level of messages."
  | .unwritable => "An integer has too many digits."
  | .brokenText => "The code has a character that no file can hold."

/-- How the program is used. -/
def usage : String :=
  "Commands: init, template, validate, explain, run, compile, ops, fields"

end NodeFlow.CommandLine

open NodeFlow NodeFlow.CommandLine in
/-- Performs the command of the arguments. The exit code is 2 if they are not understood, and 1 if
the command fails or finds something wrong. -/
def main (args : List String) : IO UInt32 := do
  match Invocation.ofWords args with
  | .error .help =>
    IO.println usage
    return 0
  | .error .misused =>
    IO.eprintln usage
    return 2
  | .ok invocation =>
    match ← (invocation.perform machineFiles).run with
    | .error e =>
      IO.eprintln (errorText e)
      return 1
    | .ok reply =>
      IO.println (displayText reply.display)
      return if reply.isWell then 0 else 1
