import BlobVault.KeyStrategy
import BlobVault.World

/-!
# Write requests

A write takes its content from a stream or from a local file, and its key from the caller or from
an observer that sees every byte before the key is needed. `WriteRequest.localize` brings the
content into a local file and settles the key: a stream goes through a temporary file, piece by
piece, a local file is read where it is.
-/

namespace BlobVault

/-- What arrives on a stream: pieces of content, or a failure that ends it. -/
abbrev ContentStream := List (Except IoError Bytes)

/-- Where the content of a write comes from. -/
inductive ContentSource
  | stream (chunks : ContentStream)
  | file (path : LocalPath)

/-- What an observer of a write is told: a piece of the content, or that there are no more. -/
inductive ObserverCall
  | observe (chunk : Bytes)
  | finish

/-- An observer of the content of a write, known by the key, if any, that it gives after any calls.
-/
structure Observer where
  keyAfter : List ObserverCall → Option String
  calls : List ObserverCall := []

namespace Observer

/-- The observer with a state that each call changes. -/
def ofState {State : Type} (start : State) (step : State → ObserverCall → State)
    (keyOf : State → Option String) : Observer :=
  { keyAfter := fun calls => keyOf (calls.foldl step start) }

/-- The observer after a piece of content. -/
def observe (o : Observer) (chunk : Bytes) : Observer :=
  { o with calls := o.calls ++ [.observe chunk] }

/-- The observer after the last piece. -/
def finish (o : Observer) : Observer := { o with calls := o.calls ++ [.finish] }

/-- The key that the observer gives. -/
def key (o : Observer) : Option String := o.keyAfter o.calls

/-- The state of a digest observer: a hasher until it is finished, the digest afterwards. -/
inductive DigestState
  | open (hasher : Hasher)
  | finished (digest : String)

/-- A digest observer after a call. Once it is finished, nothing counts. -/
def DigestState.step : DigestState → ObserverCall → DigestState
  | .open hasher, .observe chunk => .open (hasher.update chunk)
  | .open hasher, .finish => .finished hasher.finish
  | .finished digest, _ => .finished digest

/-- The digest, once it is there. -/
def DigestState.digest? : DigestState → Option String
  | .open _ => none
  | .finished digest => some digest

/-- The observer that derives the digest key. -/
def digest (algorithm : DigestAlgorithm) : Observer :=
  .ofState (.open { algorithm }) DigestState.step DigestState.digest?

/-- The observer that derives a key from the number of bytes. -/
def length : Observer :=
  .ofState (0, false) (fun
    | (n, false), .observe chunk => (n + chunk.length, false)
    | (n, _), _ => (n, true)) fun (n, finished) =>
    if finished then some ("len-" ++ toString n) else none

/-- The observer that derives no key. -/
def keyless : Observer := { keyAfter := fun _ => none }

end Observer

/-- The observer that derives keys under a strategy, if it derives any. -/
def KeyStrategy.observer? : KeyStrategy → Option Observer
  | digest algorithm => some (Observer.digest algorithm)
  | supplied => none

/-- One write: where the content comes from, who observes it, and the key if it is given. -/
structure WriteRequest where
  source : ContentSource
  observer? : Option Observer := none
  key? : Option String := none

/-- Content in a local file, with the key it is to be stored under. -/
structure LocalContent where
  key : String
  path : LocalPath
  length : Nat
  /-- Whether the file is a temporary one of the write. -/
  temporary : Bool

namespace LocalContent

variable {α : Type}

/-- The owner of the file, if it is a temporary one. -/
def temp? (content : LocalContent) : Option TempGuard :=
  if content.temporary then some { path := content.path } else none

/-- An action with the content, which goes if the action fails. -/
def hold (content : LocalContent) (x : Action α) : Action α :=
  match content.temp? with
  | some temp => temp.hold x
  | none => x

/-- The last action with the content, which goes afterwards. -/
def close (content : LocalContent) (x : Action α) : Action α :=
  match content.temp? with
  | some temp => temp.close x
  | none => x

end LocalContent

/-- How much of a file is read at a time. -/
def readBufferSize : Nat := 65536

/-- The pieces in which a file is read. -/
def readPieces (content : Bytes) : List Bytes :=
  if content = [] then [] else content.take readBufferSize :: readPieces (content.drop readBufferSize)
termination_by content.length
decreasing_by
  rename_i h
  have hpos := List.length_pos_iff.2 h
  rw [List.length_drop]
  unfold readBufferSize
  omega

namespace WriteRequest

/-- The key: the given one, else what the observer derived. -/
def key (r : WriteRequest) : Option String := r.key?.orElse fun _ => r.observer?.bind Observer.key

/-- The key, or the error that there is none. -/
def settle (r : WriteRequest) : Action String :=
  match r.key with
  | some key => return key
  | none => throw .missingKey

/-- The request after its observer was told that there is no more. -/
def finish (r : WriteRequest) : WriteRequest := { r with observer? := r.observer?.map .finish }

/-- The request after its observer was told a piece of the content. -/
def observe (r : WriteRequest) (chunk : Bytes) : WriteRequest :=
  { r with observer? := r.observer?.map (·.observe chunk) }

/-- Appends pieces to a file, past the observer, and gives the settled key and the length. -/
def append (path : LocalPath) : WriteRequest → Nat → ContentStream → Action (String × Nat)
  | r, length, [] => do return (← r.finish.settle, length)
  | _, _, .error e :: _ => ioFail e
  | r, length, .ok chunk :: chunks => do
    putFile path ((← fileContent path) ++ chunk)
    append path (r.observe chunk) (length + chunk.length) chunks

/-- Brings a stream into a file, past the observer. -/
def transfer (r : WriteRequest) (chunks : ContentStream) (path : LocalPath) :
    Action (String × Nat) := do
  putFile path []
  append path r 0 chunks

/-- Reads a file past the observer. -/
def observeFile (r : WriteRequest) (path : LocalPath) : Action (String × Nat) := do
  let pieces := readPieces (← fileContent path)
  let read := pieces.foldl observe r
  return (← read.finish.settle, pieces.foldl (fun n piece => n + piece.length) 0)

/-- Reads a file past the observer. Without one, nothing but its size is asked for. -/
def inspect (r : WriteRequest) (path : LocalPath) : Action (String × Nat) := do
  if r.observer?.isSome then r.observeFile path
  else
    let length ← fileSize path
    return (← r.settle, length)

/-- Brings the content into a local file and settles the key. -/
def localize (r : WriteRequest) (dir : TempDir) : Action LocalContent :=
  match r.source with
  | .stream chunks => do
    let temp ← TempGuard.create dir
    let (key, length) ← temp.hold (r.transfer chunks temp.path)
    return ⟨key, temp.path, length, true⟩
  | .file path => do
    let (key, length) ← r.inspect path
    return ⟨key, path, length, false⟩

end WriteRequest

end BlobVault
