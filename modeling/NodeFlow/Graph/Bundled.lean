import NodeFlow.Graph.Basic
import NodeFlow.Text.Lower

/-!
# Bundled graphs

Three graphs to start from, each under a name. Case and the kind of the separator do not matter when
a name is looked up.
-/

namespace NodeFlow

/-- A graph that comes with the library. -/
structure BundledGraph where
  name : String
  graph : Graph

namespace BundledGraph

/-- A node without a position. -/
def node (id : String) (content : Content) : Node := ⟨id, none, content⟩

/-- A node that reads a field. -/
def field (id path : String) (dtype : Dtype) : Node := node id (.field path dtype none)

/-- A node that holds a number. -/
def number (id : String) (n : Int) : Node := node id (.const (.int n) .number none)

/-- A node that applies an operator. -/
def operator (id op : String) (label : Option String) : Node := node id (.operator op label [])

/-- A node that gives a result. -/
def output (id label : String) : Node := node id (.output label .null)

/-- An edge to a handle. -/
def edge (source target handle : String) : Edge := ⟨none, source, none, target, some handle⟩

/-- A title and a description. -/
def about (title description : String) : List (String × Value) :=
  [("title", .str title), ("description", .str description)]

/-- The price of an order and a greeting. -/
def orderTotal : BundledGraph where
  name := "order_total"
  graph := {
    metadata := about "Order total"
      "price * quantity * (1 - discount), plus a greeting for the customer."
    nodes := [
      field "price" "price" .number,
      field "quantity" "quantity" .number,
      field "discount" "discount" .number,
      number "one" 1,
      operator "subtotal" "multiply" (some "Subtotal"),
      operator "keep" "subtract" (some "Keep share"),
      operator "total" "multiply" (some "Total"),
      output "out_total" "total",
      node "hello" (.const (.str "Hello, ") .string none),
      field "name" "customer.name" .string,
      operator "greet" "concat" none,
      output "out_greeting" "greeting"]
    edges := [
      edge "price" "subtotal" "a",
      edge "quantity" "subtotal" "b",
      edge "one" "keep" "a",
      edge "discount" "keep" "b",
      edge "subtotal" "total" "a",
      edge "keep" "total" "b",
      edge "total" "out_total" "in",
      edge "hello" "greet" "a",
      edge "name" "greet" "b",
      edge "greet" "out_greeting" "in"] }

/-- Four statistics of a list. -/
def listStats : BundledGraph where
  name := "list_stats"
  graph := {
    metadata := about "List statistics"
      "De-duplicate a list, then sort, sum, average and count it."
    nodes := [
      node "values" (.const (.list [.int 3, .int 1, .int 2, .int 3]) .list (some "values")),
      operator "dedupe" "unique" none,
      operator "sorted" "sort_asc" none,
      operator "total" "sum_list" none,
      operator "mean" "average_list" none,
      operator "count" "length" none,
      output "out_sorted" "sorted",
      output "out_sum" "sum",
      output "out_mean" "mean",
      output "out_count" "count"]
    edges := [
      edge "values" "dedupe" "list",
      edge "dedupe" "sorted" "list",
      edge "dedupe" "total" "list",
      edge "dedupe" "mean" "list",
      edge "dedupe" "count" "list",
      edge "sorted" "out_sorted" "in",
      edge "total" "out_sum" "in",
      edge "mean" "out_mean" "in",
      edge "count" "out_count" "in"] }

/-- A loop that counts. -/
def countdown : BundledGraph where
  name := "countdown"
  graph := {
    metadata := about "Counter loop"
      "Increment variable i while it stays below 5, capped at 100 iterations."
    nodes := [
      node "name_i" (.const (.str "i") .string (some "name")),
      operator "read_i" "get_var" none,
      number "zero" 0,
      operator "current" "coalesce" (some "current"),
      number "limit" 5,
      operator "below" "lt" none,
      number "cap" 100,
      operator "loop" "while_loop" none,
      number "one" 1,
      operator "step" "add_assign" (some "increment"),
      output "out_count" "count"]
    edges := [
      edge "name_i" "read_i" "name",
      edge "read_i" "current" "a",
      edge "zero" "current" "b",
      edge "current" "below" "a",
      edge "limit" "below" "b",
      edge "below" "loop" "cond",
      edge "cap" "loop" "max",
      ⟨none, "loop", some Operator.scopeHandle, "step", some "scope"⟩,
      edge "name_i" "step" "name",
      edge "one" "step" "value",
      edge "step" "out_count" "in"] }

end BundledGraph

/-- The bundled graphs. -/
def BundledGraph.all : List BundledGraph := [.orderTotal, .listStats, .countdown]

/-- The form in which names of bundled graphs are compared. -/
def BundledGraph.canonicalName (name : String) : String :=
  String.ofList ((Text.lower name.toList).map fun c => if c = '-' then '_' else c)

/-- A name under which no graph is bundled, in the form in which it was compared. -/
structure UnknownBundledGraph where
  name : String
deriving DecidableEq, Repr

/-- The wording of the refusal, which lists the names that there are. -/
def UnknownBundledGraph.message (e : UnknownBundledGraph) : String :=
  "Unknown template '" ++ e.name ++ "'. Use one of: "
    ++ ", ".intercalate (BundledGraph.all.map (·.name))

/-- The bundled graph of a name. -/
def Graph.bundled (name : String) : Except UnknownBundledGraph Graph :=
  let wanted := BundledGraph.canonicalName name
  match BundledGraph.all.find? (·.name == wanted) with
  | some t => .ok t.graph
  | none => .error ⟨wanted⟩

end NodeFlow
