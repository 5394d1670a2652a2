import BlobVault.Container

/-!
# The world that stores act on

Containers, the contents of memory stores, cache directories, scratch directories for temporary
files, and the files of the caller, under one clock. An `Action` is an operation on the world: it
ends with a result or an error, and what it changed before an error stays changed.

Every local file can be read, but not every one may be written to. A copy of a file may be written
to if the file itself may.

A temporary file has an owner, a `TempGuard`. When the owner goes, on whatever way, the file goes
with it, unless it was moved away before.
-/

namespace BlobVault

open Std (ExtTreeMap)

/-- A moment, in nanoseconds. -/
abbrev Instant := Int

/-- The nanoseconds of some seconds. -/
def seconds (n : Nat) : Nat := n * 1000000000

/-- A temporary file. -/
structure TempFile where
  content : Bytes
  writable : Bool := true

/-- Temporary files of one directory, by serial number. -/
abbrev TempFiles := ExtTreeMap Nat TempFile

/-- The contents of a memory store. -/
abbrev Blobs := ExtTreeMap String Bytes

/-- What a name in a cache directory stands for. -/
inductive CacheNode
  | file (content : Bytes) (modified : Instant) (writable : Bool := true)
  | directory

/-- A cache directory: its entries, and its directory for temporary files unless that is gone. The
file system lists the entries in an order of its own. -/
structure CacheDir where
  entries : ExtTreeMap String CacheNode := ∅
  temps? : Option TempFiles := some ∅
  /-- What goes by when a name is listed at a moment. -/
  position : Instant → String → Nat := fun _ _ => 0

namespace CacheDir

/-- The name of the directory for temporary files. -/
def tempName : String := "tmp"

/-- The directory after something was put into it from outside. A directory with the name of the one
for temporary files is that one, and no file takes its place. -/
def put (d : CacheDir) (name : String) (node : CacheNode) : CacheDir :=
  let filled := { d with entries := d.entries.insert name node }
  if name ≠ tempName then filled
  else
    match node, d.temps? with
    | .directory, temps? => { d with temps? := some (temps?.getD ∅) }
    | .file _ _ _, none => filled
    | .file _ _ _, some _ => d

/-- Everything but what has the name of the directory for temporary files. -/
def listed (d : CacheDir) : List (String × CacheNode) :=
  d.entries.toList.filter (·.1 ≠ tempName)

/-- Why no temporary file can be made where there is no directory for them. -/
def tempFailure (d : CacheDir) : IoError :=
  if d.entries.contains tempName then .notADirectory else .notFound

end CacheDir

/-- What a name of the caller's stands for. -/
inductive Node
  | file (content : Bytes) (writable : Bool := true)
  | directory

/-- A directory for temporary files: one with a name, or the one inside a cache directory. -/
inductive TempDir
  | scratch (name : String)
  | ofCache (dir : String)
  deriving DecidableEq, Repr

/-- The place of a local file. Nothing can be made at a `detached` place: its directory does not
exist. -/
inductive LocalPath
  | caller (name : String)
  | detached
  | temp (dir : TempDir) (serial : Nat)
  | entry (dir : String) (name : String)
  deriving DecidableEq, Repr

/-- Everything that operations read and change. -/
structure World where
  containers : ExtTreeMap String Container := ∅
  memories : ExtTreeMap String Blobs := ∅
  caches : ExtTreeMap String CacheDir := ∅
  scratch : ExtTreeMap String TempFiles := ∅
  files : ExtTreeMap String Node := ∅
  /-- Cache directories whose place a regular file takes. -/
  taken : List String := []
  now : Instant := 0

/-- An operation on the world. -/
abbrev Action := EStateM BlobError World

namespace World

/-- The container of a name; one that was never used is empty. -/
def container (w : World) (name : String) : Container := w.containers.getD name {}

/-- The world with another state of a container. -/
def setContainer (w : World) (name : String) (c : Container) : World :=
  { w with containers := w.containers.insert name c }

/-- The contents of a memory store. -/
def memory (w : World) (name : String) : Blobs := w.memories.getD name ∅

/-- The world with other contents of a memory store. -/
def setMemory (w : World) (name : String) (blobs : Blobs) : World :=
  { w with memories := w.memories.insert name blobs }

/-- The world with another state of a cache directory. -/
def setCache (w : World) (dir : String) (d : CacheDir) : World :=
  { w with caches := w.caches.insert dir d }

/-- The temporary files of a directory, if the directory exists. -/
def temps? (w : World) : TempDir → Option TempFiles
  | .scratch name => w.scratch[name]?
  | .ofCache dir => w.caches[dir]?.bind CacheDir.temps?

/-- Why no temporary file can be made in a directory that is not there. -/
def tempFailure (w : World) : TempDir → IoError
  | .scratch _ => .notFound
  | .ofCache dir => (w.caches[dir]?.map CacheDir.tempFailure).getD .notFound

/-- The world with other temporary files in an existing directory. -/
def setTemps (w : World) (dir : TempDir) (files : TempFiles) : World :=
  match dir with
  | .scratch name => { w with scratch := w.scratch.insert name files }
  | .ofCache name =>
    match w.caches[name]? with
    | some d => w.setCache name { d with temps? := some files }
    | none => w

/-- The world without a temporary file. -/
def dropTemp (w : World) (dir : TempDir) (serial : Nat) : World :=
  match w.temps? dir with
  | some files => w.setTemps dir (files.erase serial)
  | none => w

/-- The world some seconds later. -/
def advance (w : World) (n : Nat) : World := { w with now := w.now + seconds n }

end World

/-- Fails with a file system error. -/
def ioFail {α : Type} (e : IoError) : Action α := throw (.io e)

/-- An action whose failure does not count. -/
def attempt (x : Action Unit) : Action Unit := fun w =>
  match x w with
  | .ok _ w => .ok () w
  | .error _ w => .ok () w

/-- An action whose error is a result like any other. -/
def outcome {α : Type} (x : Action α) : Action (Except BlobError α) := fun w =>
  match x w with
  | .ok a w => .ok (.ok a) w
  | .error e w => .ok (.error e) w

/-- The time now; no two readings are the same. -/
def tick : Action Instant := fun w => .ok w.now { w with now := w.now + 1 }

/-! ## Local files -/

/-- The content of a local file. -/
def fileContent (path : LocalPath) : Action Bytes := do
  let w ← get
  match path with
  | .caller name =>
    match w.files[name]? with
    | some (.file content _) => return content
    | some .directory => ioFail .isADirectory
    | none => ioFail .notFound
  | .detached => ioFail .notFound
  | .temp dir serial =>
    match (w.temps? dir).bind (·[serial]?) with
    | some file => return file.content
    | none => ioFail .notFound
  | .entry dir name =>
    match w.caches[dir]?.bind (·.entries[name]?) with
    | some (.file content _ _) => return content
    | some .directory => ioFail .isADirectory
    | none => ioFail .notFound

/-- The size that the file system states for a directory. -/
def directorySize : Nat := 4096

/-- The size that the file system states for a path. -/
def fileSize (path : LocalPath) : Action Nat := fun w =>
  match fileContent path w with
  | .ok content w => .ok content.length w
  | .error (.io .isADirectory) w => .ok directorySize w
  | .error e w => .error e w

/-- Whether a local file is there that may not be written to. -/
def World.isReadOnly (w : World) : LocalPath → Bool
  | .caller name =>
    match w.files[name]? with
    | some (.file _ writable) => !writable
    | _ => false
  | .detached => false
  | .temp dir serial =>
    match (w.temps? dir).bind (·[serial]?) with
    | some file => !file.writable
    | none => false
  | .entry dir name =>
    match w.caches[dir]?.bind (·.entries[name]?) with
    | some (.file _ _ writable) => !writable
    | _ => false

/-- The world in which a local file that is there may not be written to. -/
def World.protect (w : World) (path : LocalPath) : World :=
  match path with
  | .caller name =>
    match w.files[name]? with
    | some (.file content _) => { w with files := w.files.insert name (.file content false) }
    | _ => w
  | .detached => w
  | .temp dir serial =>
    match w.temps? dir with
    | some files =>
      match files[serial]? with
      | some file => w.setTemps dir (files.insert serial { file with writable := false })
      | none => w
    | none => w
  | .entry dir name =>
    match w.caches[dir]? with
    | some d =>
      match d.entries[name]? with
      | some (.file content modified _) =>
        w.setCache dir { d with entries := d.entries.insert name (.file content modified false) }
      | _ => w
    | none => w

/-- Makes a local file hold some content, in place of what it held. -/
def putFile (path : LocalPath) (content : Bytes) : Action Unit := do
  let w ← get
  if w.isReadOnly path then ioFail .permissionDenied
  match path with
  | .caller name =>
    match w.files[name]? with
    | some .directory => ioFail .isADirectory
    | _ => set { w with files := w.files.insert name (.file content) }
  | .detached => ioFail .notFound
  | .temp dir serial =>
    match w.temps? dir with
    | some files => set (w.setTemps dir (files.insert serial { content }))
    | none => ioFail (w.tempFailure dir)
  | .entry dir name =>
    match w.caches[dir]? with
    | some d =>
      set (w.setCache dir { d with entries := d.entries.insert name (.file content w.now) })
    | none => ioFail .notFound

/-- Copies one local file to another: its content, and whether it may be written to. -/
def copyFile (source target : LocalPath) : Action Unit := do
  let content ← fileContent source
  let protects := (← get).isReadOnly source
  putFile target content
  if protects then modify (·.protect target)

/-! ## Temporary files -/

/-- A serial number that none of the files has. -/
def TempFiles.fresh (files : TempFiles) : Nat :=
  match files.maxKey? with
  | some n => n + 1
  | none => 0

/-- Makes an empty temporary file and gives its serial number. -/
def createTemp (dir : TempDir) : Action Nat := do
  let w ← get
  match w.temps? dir with
  | some files =>
    let serial := TempFiles.fresh files
    set (w.setTemps dir (files.insert serial { content := [] }))
    return serial
  | none => ioFail (w.tempFailure dir)

/-- The owner of a temporary file. While it is armed, the file goes with it. -/
structure TempGuard where
  path : LocalPath
  armed : Bool := true

namespace TempGuard

variable {α : Type}

/-- Makes an empty temporary file. -/
def create (dir : TempDir) : Action TempGuard := do
  return { path := .temp dir (← createTemp dir) }

/-- The world once the owner is gone. -/
def drop (g : TempGuard) (w : World) : World :=
  match g.armed, g.path with
  | true, .temp dir serial => w.dropTemp dir serial
  | _, _ => w

/-- An action of the owner, who goes if it fails. -/
def hold (g : TempGuard) (x : Action α) : Action α := fun w =>
  match x w with
  | .ok a w => .ok a w
  | .error e w => .error e (g.drop w)

/-- The last action of the owner, who goes afterwards. -/
def close (g : TempGuard) (x : Action α) : Action α := fun w =>
  match x w with
  | .ok a w => .ok a (g.drop w)
  | .error e w => .error e (g.drop w)

/-- Moves the file away. The owner goes, and no longer takes the file with it if it was moved. -/
def persist (g : TempGuard) (move : Action Unit) : Action Unit := fun w =>
  match move w with
  | .ok _ w => .ok () ({ g with armed := false }.drop w)
  | .error e w => .error e (g.drop w)

end TempGuard

/-- Runs an action with a temporary file, whose owner goes afterwards. -/
def withTemp {α : Type} (dir : TempDir) (use : LocalPath → Action α) : Action α := do
  let temp ← TempGuard.create dir
  temp.close (use temp.path)

end BlobVault
