import NodeFlow.Value.Text

/-!
# Issues with a document

What is wrong with a document that should describe a graph or settings: a list of issues, each with
its kind and the place where it was found. Checks of different parts do not stop each other, so all
issues of a document are found at once, in the order of the parts.
-/

namespace NodeFlow

/-- One step on the way to a place in a document. -/
inductive Step where
  | name (s : String)
  | index (n : Int)
deriving DecidableEq, Repr

/-- The kinds of issues. -/
inductive IssueKind where
  | missing
  | notText
  | notUnicode
  | notDtype
  | notList
  | notRecord
  | notModel
  | notAttributes
  | noTag
  | unknownTag
  | notDouble
  | unreadableDouble
  | notInteger
  | unreadableInteger
  | longInteger
  | fractionalInteger
  | notFinite
  | tooSmall
deriving DecidableEq, Repr

/-- The code under which a kind of issue is reported. -/
def IssueKind.code : IssueKind → String
  | missing => "missing"
  | notText => "string_type"
  | notUnicode => "string_unicode"
  | notDtype => "literal_error"
  | notList => "list_type"
  | notRecord => "dict_type"
  | notModel => "model_type"
  | notAttributes => "model_attributes_type"
  | noTag => "union_tag_not_found"
  | unknownTag => "union_tag_invalid"
  | notDouble => "float_type"
  | unreadableDouble => "float_parsing"
  | notInteger => "int_type"
  | unreadableInteger => "int_parsing"
  | longInteger => "int_parsing_size"
  | fractionalInteger => "int_from_float"
  | notFinite => "finite_number"
  | tooSmall => "greater_than_equal"

/-- Something wrong at a place of a document. -/
structure Issue where
  place : List Step
  kind : IssueKind
deriving DecidableEq, Repr

/-- The same issue, seen from one step further out. -/
def Issue.under (step : Step) (issue : Issue) : Issue := { issue with place := step :: issue.place }

/-- What was read from a document, or the issues with it. -/
abbrev Checked (α : Type) := Except (List Issue) α

namespace Checked

variable {α β : Type}

/-- An issue of the part that is being read. -/
def fail (kind : IssueKind) : Checked α := .error [⟨[], kind⟩]

/-- The result of a part, its issues seen from the whole. -/
def under (step : Step) (x : Checked α) : Checked α := x.mapError (·.map (·.under step))

/-- The results of two parts, or the issues of both. -/
def both (x : Checked α) (y : Checked β) : Checked (α × β) :=
  match x, y with
  | .ok a, .ok b => .ok (a, b)
  | .error e, .ok _ => .error e
  | .ok _, .error e => .error e
  | .error e, .error f => .error (e ++ f)

/-- The results of all parts, or the issues of all. -/
def all : List (Checked α) → Checked (List α)
  | [] => .ok []
  | x :: rest => (both x (all rest)).map fun (a, as) => a :: as

/-- Seeing a part from further out changes no success. -/
@[simp] theorem under_eq_ok_iff {step : Step} {x : Checked α} {a : α} :
    x.under step = .ok a ↔ x = .ok a := by
  cases x with
  | error => exact ⟨nofun, nofun⟩
  | ok => exact Iff.rfl

/-- Two parts are read when each of them is. -/
@[simp] theorem both_eq_ok_iff {x : Checked α} {y : Checked β} {a : α} {b : β} :
    x.both y = .ok (a, b) ↔ x = .ok a ∧ y = .ok b := by
  cases x <;> cases y <;> simp [both]

/-- Parts that are all read give what each of them gives. -/
@[simp] theorem all_map_ok (as : List α) : all (as.map .ok) = .ok as := by
  induction as with
  | nil => rfl
  | cons a as ih => simp [all, ih, both, Except.map]

end Checked

end NodeFlow
