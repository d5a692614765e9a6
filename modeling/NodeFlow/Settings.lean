import NodeFlow.Schema.Reader

/-!
# Settings

How many passes a loop without a limit of its own may take, which messages are logged, and the
record that a graph is previewed with when none is given.
-/

namespace NodeFlow

/-- The settings of the program. -/
structure Settings where
  defaultMaxPasses : Nat
  logLevel : String
  sampleRecord : List (String × Value)
deriving DecidableEq

namespace Settings

open Schema

/-- The record that graphs are previewed with by default. -/
def orderRecord : List (String × Value) := [
  ("id", .int 1),
  ("price", .float 99.99),
  ("quantity", .int 3),
  ("discount", .float 0.1),
  ("customer", .record [(.str "name", .str "Jane Doe"), (.str "city", .str "Simi Valley"),
    (.str "state", .str "CA")]),
  ("created_at", .str "2025-01-15")]

/-- The settings of those who set nothing. -/
def default : Settings := ⟨1000, "WARNING", orderRecord⟩

instance : Inhabited Settings := ⟨default⟩

/-- The sample record as a value. -/
def sample (s : Settings) : Value := .record (s.sampleRecord.map fun (k, v) => (.str k, v))

/-- Reads the parts of settings, each of which may be missing. -/
def readParts (entries : List (Atom × Value)) : Checked Settings :=
  (optional ["default_max_iterations"] default.defaultMaxPasses natural entries
    |>.both (optional ["log_level"] default.logLevel text entries)
    |>.both (optional ["sample_record"] default.sampleRecord (record any) entries)).map
    fun ((passes, level), sample) => ⟨passes, level, sample⟩

/-- Reads settings from a document. -/
def read (v : Value) : Except DocumentError Settings := document readParts v

end Settings

end NodeFlow
