import BlobVault.Gc.Pass

/-!
# Collection commands

A command is one full pass on behalf of a caller: list, mark every live reference, sweep. A runner
keeps a report for each command, which shows the progress in steps of a hundred references and how
the command ended.
-/

namespace BlobVault

open Std (ExtTreeMap)

/-- The id of a command. -/
structure CommandId where
  text : String
  deriving DecidableEq, Repr

/-- The id of random bits: a UUID of version 4, in groups of 8, 4, 4, 4 and 12 hexadecimal digits. -/
def CommandId.ofRandom (bits : BitVec 128) : CommandId :=
  let fixed : BitVec 128 := 0xF000 <<< 64 ||| 0xC <<< 60
  let digits := ((bits &&& ~~~fixed) ||| 0x4000 <<< 64 ||| 0x8 <<< 60).toHex.toList
  let group := fun start count => (digits.drop start).take count
  ⟨String.ofList (group 0 8 ++ '-' :: (group 8 4 ++ '-' :: (group 12 4 ++ '-' ::
    (group 16 4 ++ '-' :: digits.drop 20))))⟩

/-- A moment of a report: days since 1970-01-01, seconds of the day, and nanoseconds. A leap second
is told by nanoseconds beyond a second. -/
structure Timestamp where
  days : Int
  second : Nat
  nanos : Nat
  deriving DecidableEq, Repr

/-- What a command asks for: a sweep that deletes, or one that only counts. -/
structure GcCommand where
  delete : Bool
  deriving DecidableEq, Repr

/-- How far a command is. -/
inductive GcCommandState
  | scheduled
  | running
  | completed
  | aborted (error : String)
  deriving DecidableEq, Repr

/-- Whether a state is final. -/
def GcCommandState.isTerminal : GcCommandState → Bool
  | completed | aborted _ => true
  | scheduled | running => false

/-- The report on a command. -/
structure GcReport where
  id : CommandId
  gcId : String
  delete : Bool
  state : GcCommandState
  processed : Nat := 0
  skipped : Nat := 0
  result? : Option GcStatus := none
  submittedAt : Timestamp
  finishedAt? : Option Timestamp := none
  deriving DecidableEq, Repr

/-- Every live reference, a key as often as it is referred to, or a failure. -/
abbrev LiveKeys := List (Except BlobError String)

/-- After how many references progress is reported. -/
def progressInterval : Nat := 100

/-- Marking in progress: the pass, the references handled and those that were no candidates, and
the last reported counts of both. -/
structure Marking where
  pass : GcPass
  processed : Nat := 0
  skipped : Nat := 0
  reported : Nat × Nat := (0, 0)

namespace Marking

/-- Reports the counts. -/
def report (m : Marking) : Marking := { m with reported := (m.processed, m.skipped) }

/-- One more reference. -/
def mark (m : Marking) (key : String) : Marking :=
  let (wasCandidate, pass) := m.pass.mark key
  let next := { m with
    pass
    processed := m.processed + 1
    skipped := if wasCandidate then m.skipped else m.skipped + 1 }
  if next.processed % progressInterval = 0 then next.report else next

/-- All references, up to the first failure; the end is reported too. -/
def markAll (m : Marking) : LiveKeys → Marking × Option BlobError
  | [] => (m.report, none)
  | .error e :: _ => (m, some e)
  | .ok key :: keys => (m.mark key).markAll keys

end Marking

namespace GcReport

/-- The report when a command is accepted. -/
def scheduled (id : CommandId) (gcId : String) (command : GcCommand) (now : Timestamp) : GcReport :=
  { id, gcId, delete := command.delete, state := .scheduled, submittedAt := now }

/-- The report with counts of references. -/
def progress (r : GcReport) (counts : Nat × Nat) : GcReport :=
  { r with processed := counts.1, skipped := counts.2 }

/-- The report on a command that went through. -/
def complete (r : GcReport) (result : GcStatus) (now : Timestamp) : GcReport :=
  { r with state := .completed, result? := some result, finishedAt? := some now }

/-- The report on a command that failed. -/
def abort (r : GcReport) (e : BlobError) (now : Timestamp) : GcReport :=
  { r with state := .aborted e.message, finishedAt? := some now }

end GcReport

namespace GarbageCollector

variable {σ : Type}

/-- Carries out a command and gives the final report. -/
def execute (gc : GarbageCollector σ) (live : LiveKeys) (report : GcReport) (now : Timestamp) :
    StateM σ GcReport := fun s =>
  let report := { report with state := .running }
  match gc.begin s with
  | .error e s => (report.abort e now, s)
  | .ok pass s =>
    let (marking, failure?) := ({ pass : Marking }).markAll live
    let report := report.progress marking.reported
    match failure? with
    | some e => (report.abort e now, s)
    | none =>
      match gc.sweep marking.pass report.delete s with
      | .ok result s => (report.complete result now, s)
      | .error e s => (report.abort e now, s)

end GarbageCollector

/-- A collector, the live references, and the reports on all commands so far. -/
structure GcRunner (σ : Type) where
  gc : GarbageCollector σ
  live : LiveKeys
  reports : ExtTreeMap String GcReport := ∅

namespace GcRunner

variable {σ : Type}

/-- The report on a command. -/
def status? (r : GcRunner σ) (id : CommandId) : Option GcReport := r.reports[id.text]?

/-- The runner with a report in place of an earlier one on the same command. -/
def record (r : GcRunner σ) (report : GcReport) : GcRunner σ :=
  { r with reports := r.reports.insert report.id.text report }

/-- Accepts a command under an id, which is drawn at random. -/
def submit (r : GcRunner σ) (id : CommandId) (command : GcCommand) (now : Timestamp) : GcRunner σ :=
  r.record (.scheduled id r.gc.id command now)

/-- Carries out an accepted command and gives its final report. -/
def finish (r : GcRunner σ) (id : CommandId) (now : Timestamp) :
    StateM σ (Option GcReport × GcRunner σ) := fun s =>
  match r.status? id with
  | none => ((none, r), s)
  | some report =>
    let (final, s) := r.gc.execute r.live report now s
    ((some final, r.record final), s)

end GcRunner

end BlobVault
