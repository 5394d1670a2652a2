import BlobVault.Store.Operations
import BlobVault.Proofs.Cache
import BlobVault.Proofs.Upload

/-!
# The scope of temporary files

The owner of a temporary file may be handed on: from a download to the cache that keeps it, from a
request to the store that takes its content. Here every such operation is brought into the form in
which the file is there for one action and gone afterwards, which is the form that later proofs
reason about.

1. `FileCache.fetch_eq`: a look-up that downloads.
2. `LocalContent.hold_bind_close`, `LocalContent.close_install`: what is done with localized content.
3. `Store.write_caching`: a write through a cache.
-/

namespace BlobVault

/-- A download is kept in the scope of a temporary file. -/
theorem FileCache.fetch_eq (c : FileCache) (key : String) (download : LocalPath → Action Bool) :
    c.fetch key download = (do
      match ← c.touch key with
      | some path => return some path
      | none =>
        withTemp c.tempDir fun path => do
          if ← download path then return some (← c.install key path) else return none) := by
  unfold fetch withTemp TempGuard.create
  refine bind_congr fun found => ?_
  cases found with
  | some path => rfl
  | none =>
    simp only [bind_assoc, pure_bind]
    refine bind_congr fun serial => ?_
    rw [← TempGuard.hold_bind_close]
    refine bind_congr fun there => ?_
    cases there with
    | false => rfl
    | true =>
      show (do return some (← c.commit key { path := .temp c.tempDir serial })) = _
      rw [c.commit_eq]
      exact TempGuard.map_close _ _ some

/-! ## Writing through a cache -/

namespace LocalContent

variable {α β : Type}

/-- Content that stays for one action and goes with the next one stays for both. -/
theorem hold_bind_close (content : LocalContent) (x : Action α) (f : α → Action β) :
    (content.hold x >>= fun a => content.close (f a)) = content.close (x >>= f) := by
  unfold hold close
  cases content.temp? with
  | none => rfl
  | some temp => exact temp.hold_bind_close x f

theorem map_outcome_close (content : LocalContent) (x : Action α) (f : Except BlobError α → β) :
    (do return f (← outcome (content.close x)) : Action β) =
      content.close (do return f (← outcome x)) := by
  unfold close
  cases content.temp? with
  | none => rfl
  | some temp => exact temp.map_outcome_close x f

/-- A cache takes over a temporary file, or else it takes a copy. -/
theorem close_install (content : LocalContent) (c : FileCache) (key : String) :
    (match content.temp? with
      | some temp => c.commit key temp
      | none => c.insertFile key content.path) =
    content.close (if content.temporary then c.install key content.path
      else c.insertFile key content.path) := by
  unfold close temp?
  cases content.temporary with
  | false => rfl
  | true => exact c.commit_eq key content.path

end LocalContent

namespace FileCache

/-- A write through a cache. With the key, it gives the place of the copy that was kept, or why
there is none. -/
def writeKeeping (c : FileCache) (inner : Store) (r : WriteRequest) :
    Action (String × Except BlobError LocalPath) := do
  let content ← r.localize c.tempDir
  let key ← content.hold (inner.write { source := .file content.path, key? := some content.key })
  return (key, ← outcome (match content.temp? with
    | some temp => c.commit key temp
    | none => c.insertFile key content.path))

/-- What is done with the content once it is in a local file. -/
def passOn (c : FileCache) (inner : Store) (content : LocalContent) :
    Action (String × Except BlobError LocalPath) := do
  let key ← inner.write { source := .file content.path, key? := some content.key }
  return (key, ← outcome (if content.temporary then c.install key content.path
    else c.insertFile key content.path))

theorem writeKeeping_eq (c : FileCache) (inner : Store) (r : WriteRequest) :
    c.writeKeeping inner r = r.withLocal c.tempDir (c.passOn inner) := by
  rw [← r.localize_bind_close]
  refine bind_congr fun content => ?_
  unfold passOn
  rw [← content.hold_bind_close]
  refine bind_congr fun key => ?_
  rw [content.close_install, content.map_outcome_close]

end FileCache

namespace Store

/-- A write through a cache does not show whether a copy was kept. -/
theorem write_eq_writeKeeping (name : String) (c : FileCache) (inner : Store) (r : WriteRequest) :
    (Store.caching name c inner).write r = do return (← c.writeKeeping inner r).1 := by
  unfold FileCache.writeKeeping
  simp only [bind_assoc, pure_bind]
  refine bind_congr fun content => bind_congr fun key => ?_
  cases content.temp? with
  | none => exact attempt_eq_outcome _ _
  | some temp => exact attempt_eq_outcome _ _

/-- What a caching store does with the content once it is in a local file: it passes it on and keeps
a copy. -/
def keep (c : FileCache) (inner : Store) (content : LocalContent) : Action String := do
  let key ← inner.write { source := .file content.path, key? := some content.key }
  attempt do
    let _ ← if content.temporary then c.install key content.path
      else c.insertFile key content.path
  return key

/-- A caching store passes the content on and keeps it in the scope of its local file. -/
theorem write_caching (name : String) (c : FileCache) (inner : Store) (r : WriteRequest) :
    (Store.caching name c inner).write r = r.withLocal c.tempDir (keep c inner) := by
  rw [write_eq_writeKeeping, c.writeKeeping_eq, ← r.withLocal_map]
  refine congrArg (r.withLocal c.tempDir) (funext fun content => ?_)
  unfold FileCache.passOn keep
  simp only [bind_assoc, pure_bind]
  refine bind_congr fun key => ?_
  cases content.temporary with
  | true => exact (attempt_eq_outcome _ _).symm
  | false => exact (attempt_eq_outcome _ _).symm

end Store

end BlobVault
