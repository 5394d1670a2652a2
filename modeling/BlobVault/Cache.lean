import BlobVault.World

/-!
# Cache directories

A cache keeps one file for each key, named by the hexadecimal form of the key, so that distinct keys
never share a file and none stands for the directory of temporary files. The modification time of an
entry is the time of its last use, which only a file that may be written to can be marked with. An
entry only appears by moving a complete temporary file to its place.

Eviction removes the least recently used entries until size and count are within their limits, but
none that is younger than the minimum age, and not the entry that was just made.
-/

namespace BlobVault

/-- How much a cache may keep, and for how long entries are safe. -/
structure CacheLimits where
  maxSize : Nat
  maxCount : Nat
  /-- In nanoseconds. -/
  minAge : Nat
  deriving DecidableEq, Repr

/-- A cache in a directory. -/
structure FileCache where
  dir : String
  limits : CacheLimits
  deriving DecidableEq, Repr

/-- The outcome of an eviction, counted in words of 64 bits. -/
structure EvictionStats where
  removed : UInt64 := 0
  removedBytes : UInt64 := 0
  remaining : UInt64 := 0
  remainingBytes : UInt64 := 0
  deriving DecidableEq, Repr

/-- A regular file of a cache directory, as eviction sees it. -/
structure CachedFile where
  name : String
  size : Nat
  modified : Instant
  deriving DecidableEq, Repr

/-! ## Eviction -/

namespace EvictionStats

/-- The count before anything is removed. -/
def initial (files : List CachedFile) : EvictionStats :=
  { remaining := .ofNat files.length
    remainingBytes := files.foldl (fun n file => n + .ofNat file.size) 0 }

/-- The count after a file is removed. -/
def remove (s : EvictionStats) (size : Nat) : EvictionStats :=
  { removed := s.removed + 1
    removedBytes := s.removedBytes + .ofNat size
    remaining := s.remaining - 1
    remainingBytes := s.remainingBytes - .ofNat size }

/-- Whether what remains is within the limits. -/
def within (s : EvictionStats) (l : CacheLimits) : Bool :=
  s.remainingBytes.toNat ≤ l.maxSize && s.remaining.toNat ≤ l.maxCount

end EvictionStats

/-- Whether a file is too young to be evicted. A time in the future counts as now. -/
def CachedFile.isYoung (f : CachedFile) (l : CacheLimits) (now : Instant) : Bool :=
  max 0 (now - f.modified) < l.minAge

/-- Goes through files from the oldest on and picks those to remove. -/
def evictFrom (l : CacheLimits) (now : Instant) (keep? : Option String) :
    List CachedFile → EvictionStats → EvictionStats × List String
  | [], s => (s, [])
  | f :: fs, s =>
    if s.within l then (s, [])
    else if f.isYoung l now then (s, [])
    else if keep? = some f.name then evictFrom l now keep? fs s
    else
      let (t, names) := evictFrom l now keep? fs (s.remove f.size)
      (t, f.name :: names)

/-- Files from the least to the most recently used. -/
def byAge (files : List CachedFile) : List CachedFile :=
  files.mergeSort fun f g => f.modified ≤ g.modified

/-- What an eviction removes of some files, and its count. -/
def evict (l : CacheLimits) (now : Instant) (keep? : Option String) (files : List CachedFile) :
    EvictionStats × List String :=
  evictFrom l now keep? (byAge files) (.initial files)

namespace CacheDir

/-- The regular files of a directory. -/
def files (d : CacheDir) : List CachedFile :=
  d.entries.toList.filterMap fun (name, node) =>
    match node with
    | .file content modified _ => some ⟨name, content.length, modified⟩
    | .directory => none

/-- The regular files in the order in which they are listed at a moment. -/
def filesAt (d : CacheDir) (now : Instant) : List CachedFile :=
  d.files.mergeSort fun f g => d.position now f.name ≤ d.position now g.name

/-- The directory without some of its entries. -/
def eraseAll (d : CacheDir) (names : List String) : CacheDir :=
  { d with entries := names.foldl (fun m name => m.erase name) d.entries }

/-- The directory without its regular files. -/
def cleared (d : CacheDir) : CacheDir := d.eraseAll (d.files.map CachedFile.name)

end CacheDir

/-! ## Operations on a cache -/

/-- The longest name that a file can have. -/
def maxNameLength : Nat := 255

namespace FileCache

/-- The name of the entry of a key. -/
def entryName (key : String) : String := Hex.encode (.ofText key)

/-- The directory of the temporary files of a cache. -/
def tempDir (c : FileCache) : TempDir := .ofCache c.dir

/-- Sets up the directory of a cache, which keeps what it holds already. -/
def prepare (c : FileCache) : Action Unit := do
  let w ← get
  if w.taken.contains c.dir then ioFail .notADirectory
  let d := w.caches.getD c.dir {}
  set (w.setCache c.dir { d with temps? := some (d.temps?.getD ∅) })

/-- The place of the entry of a key, marked as used now; none if there is no entry. An entry that may
not be written to cannot be opened. The empty key stands for the directory itself. -/
def touch (c : FileCache) (key : String) : Action (Option LocalPath) := do
  let name := entryName key
  match (← get).caches[c.dir]? with
  | none => return none
  | some d =>
    if maxNameLength < name.length then ioFail .invalidFilename
    if name = "" then ioFail .isADirectory
    match d.entries[name]? with
    | none => return none
    | some .directory => ioFail .isADirectory
    | some (.file _ _ false) => ioFail .permissionDenied
    | some (.file content _ true) =>
      let now ← tick
      modify (·.setCache c.dir { d with entries := d.entries.insert name (.file content now) })
      return some (.entry c.dir name)

/-- Moves a temporary file to the place of an entry. -/
def publish (c : FileCache) (key : String) (dir : TempDir) (serial : Nat) : Action Unit := do
  let name := entryName key
  let content ← fileContent (.temp dir serial)
  let w ← get
  match w.caches[c.dir]? with
  | none => ioFail .notFound
  | some d =>
    if maxNameLength < name.length then ioFail .invalidFilename
    if name = "" then ioFail .notADirectory
    if let some .directory := d.entries[name]? then ioFail .isADirectory
    let now ← tick
    let node := CacheNode.file content now (!w.isReadOnly (.temp dir serial))
    modify fun w =>
      (w.setCache c.dir { d with entries := d.entries.insert name node }).dropTemp dir serial

/-- Evicts entries, all but the one with a given name. -/
def evictExcept (c : FileCache) (keep? : Option String) : Action EvictionStats := do
  let w ← get
  match w.caches[c.dir]? with
  | none => ioFail .notFound
  | some d =>
    let (stats, names) := BlobVault.evict c.limits w.now keep? (d.filesAt w.now)
    set (w.setCache c.dir (d.eraseAll names))
    return stats

/-- Evicts entries until the cache is within its limits. -/
def evict (c : FileCache) : Action EvictionStats := c.evictExcept none

/-- Moves a file to the place of an entry, if it is a temporary one. -/
def place (c : FileCache) (key : String) : LocalPath → Action Unit
  | .temp dir serial => c.publish key dir serial
  | .caller _ | .detached | .entry _ _ => ioFail .notFound

/-- Makes a temporary file the entry of a key, then evicts others. -/
def commit (c : FileCache) (key : String) (temp : TempGuard) : Action LocalPath := do
  temp.persist (c.place key temp.path)
  attempt (do let _ ← c.evictExcept (some (entryName key)))
  return .entry c.dir (entryName key)

/-- Makes a copy of a local file the entry of a key. -/
def insertFile (c : FileCache) (key : String) (source : LocalPath) : Action LocalPath := do
  let temp ← TempGuard.create c.tempDir
  temp.hold (copyFile source temp.path)
  c.commit key temp

/-- Drops the entry of a key, if it has one. -/
def remove (c : FileCache) (key : String) : Action Unit := do
  let w ← get
  match w.caches[c.dir]? with
  | some d =>
    match d.entries[entryName key]? with
    | some (.file _ _ _) => set (w.setCache c.dir (d.eraseAll [entryName key]))
    | _ => return ()
  | none => return ()

/-- Drops every entry. -/
def clear (c : FileCache) : Action Unit := do
  let w ← get
  match w.caches[c.dir]? with
  | some d => set (w.setCache c.dir d.cleared)
  | none => ioFail .notFound

end FileCache

end BlobVault
