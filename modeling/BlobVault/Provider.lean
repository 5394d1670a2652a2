import BlobVault.Gc.Command
import BlobVault.Scroll
import BlobVault.Signing
import BlobVault.Store.Copy

/-!
# Providers

A provider binds a key strategy and a remote store, perhaps with a cache in front, under an id. Its
keys may be qualified by the id and a colon; reads, deletions, copies and signed URLs accept both
forms. Writes do not look for a qualifier.
-/

namespace BlobVault

/-- What the holder of a URL wants to do with it. -/
inductive UsageHint
  | download | stream | embed
  deriving DecidableEq, Repr

/-- A key strategy and a store under an id. -/
structure Provider where
  id : String
  keys : KeyStrategy
  remote : RemoteStore
  cache? : Option FileCache := none
  directDownload : Bool := false
  /-- In seconds. -/
  directDownloadExpire : Nat := 3600
  cdnHost? : Option String := none

/-- The name of the scroll over a provider's store. -/
def storeScrollName : String := "azureBlobScroll"

/-- The URL with the host, and the port if one is given, of a delivery network. -/
def Url.substituteHost (u : Url) (host : String) : Except BlobError Url :=
  let changed := match Text.splitLast? ':' host.toList with
    | some (name, port) => do
      let n ← Text.decimalBelow? 65536 port
      (← u.withHost? name).withPort? (some n)
    | none => do (← u.withHost? host.toList).withPort? none
  match changed with
  | some url => .ok url
  | none => .error (.config (.malformedHost host))

/-- Raises an error of a computation that has no effects. -/
def check {α : Type} : Except BlobError α → Action α
  | .ok a => return a
  | .error e => throw e

namespace Provider

/-- The store for reads and writes. -/
def store (p : Provider) : Store :=
  match p.cache? with
  | some cache => .caching (p.id ++ "-cache") cache (.remote p.remote)
  | none => .remote p.remote

/-- The provider of a configuration, where the standard cache directory is a given one. -/
def ofConfig (id : String) (c : Config) (tempDir : TempDir) (standardDir : String) :
    Action Provider := do
  let remote ← check (RemoteStore.ofConfig id c tempDir)
  let cache? := c.caching?.map (CachingConfig.toCache standardDir)
  if let some cache := cache? then cache.prepare
  return {
    id, remote, cache?
    keys := .digest c.digest
    directDownload := c.directDownload
    directDownloadExpire := if c.directDownload then c.directDownloadExpire else 3600
    cdnHost? := c.cdnHost? }

/-- A key without the provider's qualifier. -/
def localKey (p : Provider) (key : String) : String :=
  match Text.dropFront? (p.id.toList ++ [':']) key.toList with
  | some rest => String.ofList rest
  | none => key

/-- Writes content under the key that the strategy derives. -/
def writeBlob (p : Provider) (chunks : ContentStream) : Action String :=
  match p.keys.observer? with
  | some o => p.store.write { source := .stream chunks, observer? := some o }
  | none => throw (.invalid (.keyRequired p.id))

/-- Writes content under a given key. -/
def writeBlobWithKey (p : Provider) (key : String) (chunks : ContentStream) : Action String := do
  check (p.keys.validate key)
  p.store.write { source := .stream chunks, observer? := p.keys.observer?, key? := some key }

/-- Opens a blob for reading. -/
def openStream (p : Provider) (key : String) : Action (Option BlobStream) :=
  p.store.openStream (p.localKey key)

/-- Downloads into a local file what a key asks for. -/
def readInto (p : Provider) (key : String) (dest : LocalPath) : Action Bool :=
  p.store.readInto (p.localKey key) dest

/-- Deletes a blob. -/
def delete (p : Provider) (key : String) : Action Unit := p.store.delete (p.localKey key)

/-- Copies or moves a blob from another provider. -/
def copyFrom (p : Provider) (key : String) (source : Provider) (sourceKey : String) (move : Bool) :
    Action (Option String) :=
  p.store.copyFrom (p.localKey key) source.store (source.localKey sourceKey) move

/-- The collector over the remote store. Only digest keys can be collected. -/
def collector (p : Provider) : Except BlobError (GarbageCollector World) :=
  match p.keys.algorithm? with
  | some algorithm => .ok { catalog := p.remote.catalog, algorithm }
  | none => .error .unsupported

/-- The runner of collection commands. -/
def runner (p : Provider) (live : LiveKeys) : Except BlobError (GcRunner World) :=
  p.collector.map fun gc => { gc, live }

/-- A scroll over the remote store. -/
def scroll (p : Provider) (batchSize : Nat) : Scroll := Scroll.ofRemote p.remote batchSize

/-- The scroll of a name. -/
def openScroll (p : Provider) (name : String) (batchSize : Nat) : Except BlobError Scroll :=
  if name = storeScrollName then .ok (p.scroll batchSize)
  else .error (.invalid (.unknownScroll name))

/-- A URL for reading a blob directly; none unless direct downloads are on and wanted. -/
def signedUrl (p : Provider) (key : String) (hint : UsageHint) (expire? : Option Nat) :
    Except BlobError (Option Url) := do
  if !p.directDownload || hint != .download then return none
  let url ← p.remote.signedUrl (p.localKey key) (expire?.getD p.directDownloadExpire)
  match p.cdnHost? with
  | some host => return some (← url.substituteHost host)
  | none => return some url

end Provider

end BlobVault
