import BlobVault.Store.Operations

/-!
# Copying and moving between stores

Inside one container the container copies. Otherwise the blob goes through a local file: the source
store's own if it keeps one, else a temporary one. A move deletes the source through the store that
the caller named, so that its caches forget the blob too.
-/

namespace BlobVault

/-- Runs an action with a local file that holds a blob of a store; none if there is no such blob. -/
def Store.withFile {α : Type} (source : Store) (key : String) (dir : TempDir)
    (use : LocalPath → Action α) : Action (Option α) := do
  match ← source.localFile key with
  | .found path => return some (← use path)
  | .missing => return none
  | .unknown =>
    withTemp dir fun temp => do
      if ← source.readInto key temp then return some (← use temp) else return none

/-- Copies a blob into a memory store. -/
def MemoryStore.copyFrom (m : MemoryStore) (key : String) (source : Store) (sourceKey : String)
    (move : Bool) : Action (Option String) := do
  match ← source.withFile sourceKey m.tempDir (m.storeFile key) with
  | none => return none
  | some _ =>
    if move then source.delete sourceKey
    return some key

namespace RemoteStore

/-- Whether another store ends up in the same container of the same account. -/
def sharesContainer (r : RemoteStore) (other : Store) : Bool :=
  match other.remote? with
  | some o => o.location == r.location
  | none => false

/-- Copies inside the container. -/
def copyInside (r : RemoteStore) (key : String) (source : Store) (sourceRemote : RemoteStore)
    (sourceKey : String) (move : Bool) : Action (Option String) := do
  if (← sourceRemote.size? sourceKey).isNone then return none
  let sourcePath := sourceRemote.pathFor sourceKey
  let path := r.pathFor key
  if sourcePath = path then return some key
  if (← r.size? key).isNone then
    match ← r.call (Container.copyToFree sourcePath path) with
    | .ok _ => pure ()
    | .error (.alreadyExists _) => pure ()
    | .error (.notFound _) => return none
    | .error e => fail e
  if move then source.delete sourceKey
  return some key

/-- Copies through a local file. -/
def copyThrough (r : RemoteStore) (key : String) (source : Store) (sourceKey : String)
    (move : Bool) : Action (Option String) := do
  let upload := fun file => do
    let length ← fileSize file
    r.storeFile key file length
  match ← source.withFile sourceKey r.tempDir upload with
  | none => return none
  | some _ =>
    if move then source.delete sourceKey
    return some key

/-- Copies a blob into a remote store. -/
def copyFrom (r : RemoteStore) (key : String) (source : Store) (sourceKey : String) (move : Bool) :
    Action (Option String) :=
  match source.remote? with
  | some o =>
    if o.location = r.location then r.copyInside key source o sourceKey move
    else r.copyThrough key source sourceKey move
  | none => r.copyThrough key source sourceKey move

end RemoteStore

namespace Store

/-- Copies or moves a blob of another store to a key, unless the key exists; the result is the key,
or none if there is no such blob. -/
def copyFrom : Store → String → Store → String → Bool → Action (Option String)
  | .memory m, key, source, sourceKey, move => m.copyFrom key source sourceKey move
  | .remote r, key, source, sourceKey, move => r.copyFrom key source sourceKey move
  | .caching _ _ inner, key, source, sourceKey, move => inner.copyFrom key source sourceKey move

/-- Whether copies from another store avoid local files. -/
def copiesInside : Store → Store → Bool
  | .memory _, _ => false
  | .remote r, source => r.sharesContainer source
  | .caching _ _ inner, source => inner.copiesInside source

end Store

end BlobVault
