import NodeFlow.Session.Basic

/-!
# Steps of a session by name

A step is a name and a list of arguments, of which trailing ones may be left out where they have a
default.
-/

namespace NodeFlow.Session

/-- What a step gives. -/
inductive Reply where
  | id (id : String)
  | edge (e : Edge)
  | graph (g : Graph)
  | values (values : List (String × Value))
  | nodes (nodes : List Node)
  | code (text : String)

/-- Arguments of which at least so many are given, filled up with defaults for the others. -/
def arguments (atLeast : Nat) (defaults args : List Value) : Edit (List Value) :=
  if args.length < atLeast || atLeast + defaults.length < args.length then throw .arguments
  else return args ++ defaults.drop (args.length - atLeast)

/-- Performs the action that a value describes. -/
def dispatchValue (v : Value) : Edit Graph := do
  match Action.read? v with
  | none => throw .arguments
  | some action => dispatch (← checked action)

/-- A view of the session as it is. -/
def view {α : Type} (f : Session → Except SessionError α) : Edit α := do
  ExceptT.mk (return f (← get))

/-- Performs a step. -/
def perform (name : String) (args : List Value) : Edit Reply := do
  match name with
  | "add_field" =>
    let args ← arguments 1 [.str "any", .null] args
    .id <$> addField (args.getD 0 .null) (args.getD 1 .null) (args.getD 2 .null)
  | "add_const" =>
    let args ← arguments 1 [.null, .null] args
    .id <$> addConst (args.getD 0 .null) (args.getD 1 .null) (args.getD 2 .null)
  | "add_operator" =>
    let args ← arguments 1 [.null, .null] args
    .id <$> addOperator (args.getD 0 .null) (args.getD 1 .null) (args.getD 2 .null)
  | "add_output" =>
    let args ← arguments 0 [.str defaultOutputLabel] args
    .id <$> addOutput (args.getD 0 .null)
  | "connect" =>
    let args ← arguments 2 [.null, .null] args
    .edge <$> connect (args.getD 0 .null) (args.getD 1 .null) (args.getD 2 .null)
      (args.getD 3 .null)
  | "disconnect" =>
    let args ← arguments 1 [] args
    .graph <$> disconnect (args.getD 0 .null)
  | "edit_const" =>
    let args ← arguments 2 [.null] args
    .graph <$> editConst (args.getD 0 .null) (args.getD 1 .null) (args.getD 2 .null)
  | "remove_node" =>
    let args ← arguments 1 [] args
    .graph <$> removeNode (args.getD 0 .null)
  | "dispatch" =>
    let args ← arguments 1 [] args
    .graph <$> dispatchValue (args.getD 0 .null)
  | "values" =>
    let args ← arguments 1 [] args
    .values <$> view (·.values (args.getD 0 .null))
  | "preview" =>
    let args ← arguments 0 [.null] args
    .nodes <$> view (·.preview (args.getD 0 .null))
  | "python" =>
    let _ ← arguments 0 [] args
    .code <$> view (.ok ·.code)
  | "graph" =>
    let _ ← arguments 0 [] args
    .graph <$> view (.ok ·.graph)
  | _ => throw .unknownStep

end NodeFlow.Session
