import BlobVault.Catalog

/-!
# Scrolls

A scroll hands out the blobs of a store in batches and only moves forward. The listing of a memory
store is taken when the scroll is opened, that of a remote store when it is first read.
-/

namespace BlobVault

/-- A listing that a scroll goes through. -/
inductive ScrollSource
  | taken (items : List ListingItem)
  | untaken (store : RemoteStore)

/-- An enumeration in batches. -/
structure Scroll where
  id : String
  batchSize : Nat
  source : ScrollSource

namespace Scroll

/-- A scroll over a listing. -/
def ofListing (id : String) (items : List ListingItem) (batchSize : Nat) : Scroll :=
  ⟨id, max batchSize 1, .taken items⟩

/-- A scroll over a memory store. -/
def ofMemory (m : MemoryStore) (w : World) (batchSize : Nat) : Scroll :=
  ofListing m.catalog.id (m.items w) batchSize

/-- A scroll over a remote store. -/
def ofRemote (r : RemoteStore) (batchSize : Nat) : Scroll :=
  ⟨r.catalog.id, max batchSize 1, .untaken r⟩

/-- The pages ahead of a scroll, whose listing is taken now if it was not before. -/
def pager (s : Scroll) (w : World) : Pager × World :=
  match s.source with
  | .taken items => (⟨s.batchSize, items⟩, w)
  | .untaken r =>
    let (items, w) := r.list w
    (⟨s.batchSize, items⟩, w)

/-- The scroll once its pager has moved on. -/
def moved (s : Scroll) (p : Pager) : Scroll := { s with source := .taken p.rest }

/-- Whether anything is left, a failure included. -/
def hasNext (s : Scroll) (w : World) : (Bool × Scroll) × World :=
  let (p, w) := s.pager w
  ((p.hasMore, s.moved p), w)

/-- The next batch; at the end there is none, which is an error. -/
def next (s : Scroll) (w : World) : (Except BlobError Page × Scroll) × World :=
  let (p, w) := s.pager w
  let (page, p) := p.next
  let batch := match page with
    | .ok (some page) => .ok page
    | .ok none => .error .noSuchElement
    | .error e => .error e
  ((batch, s.moved p), w)

end Scroll

end BlobVault
