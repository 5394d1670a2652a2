import BlobVault.Paging
import BlobVault.Store.Basic

/-!
# Reading, writing and deleting

The operations that every store has. A caching store looks into its cache first and fills it on a
miss; it passes writes on before it keeps a copy, and keys that carry a range always go past the
cache.
-/

namespace BlobVault

/-- Content that is about to be read: a delivery, or a local file that is opened only then. -/
inductive BlobStream
  | delivery (content : Delivery)
  | file (path : LocalPath)

/-- Reads a stream to its end: what arrives, and the failure that ends it early. -/
def BlobStream.drain : BlobStream → Action (Bytes × Option BlobError)
  | .delivery d => return (d.bytes, d.failure?.map fun e => .io (.other e.text))
  | .file path => do
    match ← outcome (fileContent path) with
    | .ok content => return (content, none)
    | .error e => return ([], some e)

namespace MemoryStore

/-- The content that a key asks for: the window of an annotated key if the store allows ranges and
the window starts inside the blob, else the blob. -/
def lookup (m : MemoryStore) (key : String) : Action (Option Bytes) := do
  let (base, range?) := if m.allowsRange then ByteRange.splitKey key else (key, none)
  match ← m.find? base, range? with
  | none, _ => return none
  | some content, none => return some content
  | some content, some r =>
    if r.start.toNat < content.length then return some (r.window content) else return none

/-- Downloads into a local file what a key asks for. -/
def readInto (m : MemoryStore) (key : String) (dest : LocalPath) : Action Bool := do
  match ← m.lookup key with
  | some content =>
    putFile dest content
    return true
  | none => return false

/-- Puts the content of a local file under a key, unless the key exists. -/
def storeFile (m : MemoryStore) (key : String) (file : LocalPath) : Action Unit := do
  if (← m.find? key).isNone then m.insert key (← fileContent file)

/-- Writes a blob unless its key exists, and gives the key. -/
def write (m : MemoryStore) (r : WriteRequest) : Action String := do
  let content ← r.localize m.tempDir
  content.close do
    m.storeFile content.key content.path
    return content.key

end MemoryStore

namespace RemoteStore

/-- Writes a delivery into a local file; a delivery that breaks off is an error. -/
def save (d : Delivery) (dest : LocalPath) : Action Unit := do
  putFile dest d.bytes
  match d.failure? with
  | some e => fail e
  | none => return ()

/-- Downloads into a local file what a key asks for. A window that starts past the end of the blob
is not there. -/
def readInto (r : RemoteStore) (key : String) (dest : LocalPath) : Action Bool := do
  let (base, range?) := if r.allowsRange then ByteRange.splitKey key else (key, none)
  if let some range := range? then
    match ← r.size? base with
    | none => return false
    | some size => if size ≤ range.start.toNat then return false
  match ← r.find? (Container.fetch (r.pathFor base) range?) with
  | none => return false
  | some d =>
    save d dest
    return true

/-- Writes a blob unless its key exists, and gives the key. -/
def write (r : RemoteStore) (req : WriteRequest) : Action String := do
  let content ← req.localize r.tempDir
  content.close do
    r.storeFile content.key content.path content.length
    return content.key

/-- The blobs directly in the namespace, in the order of their paths, and the failure that ends the
listing early. -/
def list (r : RemoteStore) (w : World) : List ListingItem × World :=
  let ((found, failure?), c) := (w.container r.container).list r.space.top?
  let blobs := found.filterMap fun (p, size) => (r.space.localKey? p).map fun key => ⟨key, size⟩
  let failures := failure?.toList.map fun e => BlobError.backend (.container e)
  (blobs.map .ok ++ failures.map .error, w.setContainer r.container c)

/-- Deletes every blob that the listing names, page by page. -/
def clear (r : RemoteStore) : Action Unit := fun w =>
  let (items, w) := r.list w
  let (pages, failure?) := (Pager.ofListing items defaultPageSize).readAll
  let w := pages.flatten.foldl (fun w blob => r.erase blob.key w) w
  match failure? with
  | some e => .error e w
  | none => .ok () w

end RemoteStore

/-- The cached file of a key, downloaded first if there is none; none if there is no such blob. -/
def FileCache.fetch (c : FileCache) (key : String) (download : LocalPath → Action Bool) :
    Action (Option LocalPath) := do
  match ← c.touch key with
  | some path => return some path
  | none =>
    let temp ← TempGuard.create c.tempDir
    if ← temp.hold (download temp.path) then return some (← c.commit key temp)
    else temp.close (return none)

namespace Store

/-- The name of a store. -/
def name : Store → String
  | .memory m => m.name
  | .remote r => r.name
  | .caching n _ _ => n

/-- The remote store that the blobs end up in, if it is one. -/
def remote? : Store → Option RemoteStore
  | .memory _ => none
  | .remote r => some r
  | .caching _ _ inner => inner.remote?

/-- Whether a blob exists. -/
def contains : Store → String → Action Bool
  | .memory m, key => return (← m.find? key).isSome
  | .remote r, key => return (← r.size? key).isSome
  | .caching _ cache inner, key => do
    if ByteRange.isAnnotated key then inner.contains key
    else
      match ← cache.touch key with
      | some _ => return true
      | none => inner.contains key

/-- Downloads into a local file what a key asks for. -/
def readInto : Store → String → LocalPath → Action Bool
  | .memory m, key, dest => m.readInto key dest
  | .remote r, key, dest => r.readInto key dest
  | .caching _ cache inner, key, dest => do
    if ByteRange.isAnnotated key then inner.readInto key dest
    else
      match ← cache.fetch key (inner.readInto key) with
      | some path =>
        copyFile path dest
        return true
      | none => return false

/-- The local file of a blob, if the store keeps one. -/
def localFile : Store → String → Action (Lookup LocalPath)
  | .memory _, _ => return .unknown
  | .remote _, _ => return .unknown
  | .caching _ cache inner, key => do
    if ByteRange.isAnnotated key then return .unknown
    match ← cache.fetch key (inner.readInto key) with
    | some path => return .found path
    | none => return .missing

/-- Opens a blob for reading. -/
def openStream : Store → String → Action (Option BlobStream)
  | .memory m, key => return (← m.find? key).map fun content => .delivery ⟨content, none⟩
  | .remote r, key => return (← r.find? (Container.fetch (r.pathFor key) none)).map .delivery
  | .caching _ cache inner, key => do
    if ByteRange.isAnnotated key then inner.openStream key
    else return (← cache.fetch key (inner.readInto key)).map .file

/-- Deletes a blob; an absent one is no error, and failures are not reported. -/
def delete : Store → String → Action Unit
  | .memory m, key => modify (m.erase key)
  | .remote r, key => modify (r.erase key)
  | .caching _ cache inner, key => do
    cache.remove key
    inner.delete key

/-- Writes a blob unless its key exists, and gives the key. A caching store keeps a copy of what was
written; that it could not is no error. -/
def write : Store → WriteRequest → Action String
  | .memory m, r => m.write r
  | .remote s, r => s.write r
  | .caching _ cache inner, r => do
    let content ← r.localize cache.tempDir
    let key ← content.hold (inner.write { source := .file content.path, key? := some content.key })
    attempt do
      let _ ← match content.temp? with
        | some temp => cache.commit key temp
        | none => cache.insertFile key content.path
    return key

/-- Deletes every blob of the store. -/
def clear : Store → Action Unit
  | .memory m => modify fun w => w.setMemory m.memory ∅
  | .remote r => r.clear
  | .caching _ cache inner => do
    cache.clear
    inner.clear

end Store

end BlobVault
