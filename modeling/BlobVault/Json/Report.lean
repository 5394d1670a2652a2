import BlobVault.Json.Time
import BlobVault.Json.Value

/-!
# Reports as JSON

The totals of a pass, commands and their reports, written as JSON values and read back. A record is
an object with the names of its fields or an array with all of them in order. Fields of other names
do not count, but every name has to be a text; a field given twice is refused.
-/

namespace BlobVault

open Json (Value)

namespace Json

/-- An object with fields of some names. -/
def record (fields : List (String × Value)) : Value :=
  .object (fields.map fun (name, v) => (some name, v))

/-- A natural number. -/
def natural (n : Nat) : Value := .number (some n)

/-- A text. -/
def text (s : String) : Value := .string (some s)

/-- A value that may be absent. -/
def optional {α : Type} (write : α → Value) : Option α → Value
  | some a => write a
  | none => .null

/-- The natural number that a value states. -/
def readNatural? : Value → Option Nat
  | .number natural? => natural?
  | _ => none

/-- The word that a value states. -/
def readWord? (v : Value) : Option UInt64 := (readNatural? v).map .ofNat

/-- The truth value that a value states. -/
def readBool? : Value → Option Bool
  | .bool b => some b
  | _ => none

/-- The text that a value states. -/
def readText? : Value → Option String
  | .string text? => text?
  | _ => none

/-- Reads a value that may be absent; null and an absent field say that it is. -/
def readOptional? {α : Type} (read : Value → Option α) : Value → Option (Option α)
  | .null => some none
  | v => (read v).map some

/-- The values of the fields of a record, in order, null standing for an absent one that may be so.
-/
def record? (fields : List (String × Bool)) : Value → Option (List Value)
  | .array items => if items.length = fields.length then some items else none
  | .object given =>
    if given.any fun (name?, _) => name?.isNone then none
    else
      fields.mapM fun (name, required) =>
        match given.filter fun (name?, _) => name? = some name with
        | [(_, v)] => some v
        | [] => if required then none else some .null
        | _ => none
  | _ => none

/-- The value of a field that has to be there. -/
def required (name : String) : String × Bool := (name, true)

/-- The value of a field that may be missing. -/
def missable (name : String) : String × Bool := (name, false)

end Json

open Json

namespace GcStatus

/-- The totals as JSON. -/
def toJson (s : GcStatus) : Value :=
  record [("size_binaries", natural s.sizeBinaries.toNat),
    ("num_binaries", natural s.numBinaries.toNat),
    ("size_binaries_gc", natural s.sizeBinariesGc.toNat),
    ("num_binaries_gc", natural s.numBinariesGc.toNat)]

/-- The totals that a value states. -/
def ofJson? (v : Value) : Option GcStatus := do
  match ← record? (["size_binaries", "num_binaries", "size_binaries_gc", "num_binaries_gc"].map
    required) v with
  | [a, b, c, d] =>
    return ⟨← readWord? a, ← readWord? b, ← readWord? c, ← readWord? d⟩
  | _ => none

end GcStatus

namespace GcCommand

/-- A command as JSON. -/
def toJson (c : GcCommand) : Value := record [("delete", .bool c.delete)]

/-- The command that a value states. -/
def ofJson? (v : Value) : Option GcCommand := do
  match ← record? [required "delete"] v with
  | [d] => return ⟨← readBool? d⟩
  | _ => none

end GcCommand

namespace CommandId

/-- An id as JSON. -/
def toJson (id : CommandId) : Value := Json.text id.text

/-- The id that a value states. -/
def ofJson? (v : Value) : Option CommandId := (readText? v).map CommandId.mk

end CommandId

namespace GcCommandState

/-- A state as JSON: its name, or an object of its name and what belongs to it. -/
def toJson : GcCommandState → Value
  | scheduled => text "Scheduled"
  | running => text "Running"
  | completed => text "Completed"
  | aborted error => record [("Aborted", record [("error", text error)])]

/-- The state without content of a name. -/
def plain? (name : String) : Option GcCommandState :=
  if name = "Scheduled" then some scheduled
  else if name = "Running" then some running
  else if name = "Completed" then some completed
  else none

/-- The state that a value states. -/
def ofJson? : Value → Option GcCommandState
  | .string text? => text?.bind plain?
  | .object [(name?, .null)] => name?.bind plain?
  | .object [(name?, v)] => do
    if name? ≠ some "Aborted" then none
    match ← record? [required "error"] v with
    | [e] => return aborted (← readText? e)
    | _ => none
  | _ => none

end GcCommandState

namespace Timestamp

/-- A time as JSON. -/
def toJson (t : Timestamp) : Value := Json.text t.text

/-- The time that a value states. -/
def ofJson? (v : Value) : Option Timestamp := (readText? v).bind parse?

end Timestamp

namespace GcReport

/-- A report as JSON. -/
def toJson (r : GcReport) : Value :=
  record [("id", r.id.toJson), ("gc_id", text r.gcId), ("delete", .bool r.delete),
    ("state", r.state.toJson), ("processed", natural r.processed), ("skipped", natural r.skipped),
    ("result", optional GcStatus.toJson r.result?), ("submitted_at", r.submittedAt.toJson),
    ("finished_at", optional Timestamp.toJson r.finishedAt?)]

/-- The report that a value states. -/
def ofJson? (v : Value) : Option GcReport := do
  match ← record? [required "id", required "gc_id", required "delete", required "state",
    required "processed", required "skipped", missable "result", required "submitted_at",
    missable "finished_at"] v with
  | [id, gcId, delete, state, processed, skipped, result, submitted, finished] =>
    return {
      id := ← CommandId.ofJson? id
      gcId := ← readText? gcId
      delete := ← readBool? delete
      state := ← GcCommandState.ofJson? state
      processed := ← readNatural? processed
      skipped := ← readNatural? skipped
      result? := ← readOptional? GcStatus.ofJson? result
      submittedAt := ← Timestamp.ofJson? submitted
      finishedAt? := ← readOptional? Timestamp.ofJson? finished }
  | _ => none

end GcReport

end BlobVault
