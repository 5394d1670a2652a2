import BlobVault.Store.Operations

/-!
# Catalogs

A catalog is what enumeration and garbage collection need of a store: a listing of its blobs, the
size of one, and its removal. `MemoryStore.catalog` and `RemoteStore.catalog` are the catalogs of
stores; the state type is left open so that other sources of listings fit too.
-/

namespace BlobVault

/-- The listing side of something that keeps blobs. -/
structure Catalog (σ : Type) where
  /-- What the catalog lists, for reports. -/
  id : String
  /-- All blobs, from the start. -/
  list : σ → List ListingItem × σ
  /-- The size of a blob; none if it is gone. -/
  size? : String → EStateM BlobError σ (Option Nat)
  /-- Removes a blob; an absent one is no error. -/
  remove : String → σ → σ

namespace MemoryStore

/-- The blobs of the store, in the order of their keys. -/
def items (m : MemoryStore) (w : World) : List ListingItem :=
  (m.blobs w).toList.map fun (key, content) => .ok ⟨key, content.length⟩

/-- The catalog of a memory store. -/
def catalog (m : MemoryStore) : Catalog World where
  id := "memory:" ++ m.name
  list := fun w => (m.items w, w)
  size? key := return (← m.find? key).map List.length
  remove := m.erase

end MemoryStore

/-- The catalog of a remote store. -/
def RemoteStore.catalog (r : RemoteStore) : Catalog World where
  id := "azure:" ++ r.location.container ++ "/" ++ r.space.root
  list := r.list
  size? := r.size?
  remove := r.erase

end BlobVault
