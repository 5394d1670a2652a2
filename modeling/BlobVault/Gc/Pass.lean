import BlobVault.Catalog

/-!
# Mark and sweep

A pass lists a catalog and takes every key with the shape of a digest as a candidate for deletion.
Marking a key takes it off; sweeping reclaims what is left. Keys of another shape are never touched.
A sweep without deletion only counts. The candidates are a set: a sweep takes them in any order, and
`SweepOrder` is that choice.
-/

namespace BlobVault

/-- Totals of a pass, in words of 64 bits: what is kept, and what is reclaimed. -/
structure GcStatus where
  sizeBinaries : UInt64 := 0
  numBinaries : UInt64 := 0
  sizeBinariesGc : UInt64 := 0
  numBinariesGc : UInt64 := 0
  deriving DecidableEq, Repr

namespace GcStatus

/-- The totals with one more blob listed. -/
def count (s : GcStatus) (size : Nat) : GcStatus :=
  { s with sizeBinaries := s.sizeBinaries + .ofNat size, numBinaries := s.numBinaries + 1 }

/-- A total without some of it. It stops at zero. -/
def lower (total : UInt64) (n : Nat) : UInt64 := .ofNat (total.toNat - n)

/-- The totals with one blob moved from the kept to the reclaimed ones. -/
def reclaim (s : GcStatus) (size : Nat) : GcStatus :=
  { sizeBinaries := lower s.sizeBinaries size
    numBinaries := lower s.numBinaries 1
    sizeBinariesGc := s.sizeBinariesGc + .ofNat size
    numBinariesGc := s.numBinariesGc + 1 }

end GcStatus

/-- A pass between listing and sweep: the candidates, each once, and the totals so far. -/
structure GcPass where
  gcId : String
  candidates : List String := []
  status : GcStatus := {}
  deriving Repr

namespace GcPass

/-- Whether a key would be deleted. -/
def isCandidate (p : GcPass) (key : String) : Bool := p.candidates.contains key

/-- Takes a key off the candidates; whether it was one. -/
def mark (p : GcPass) (key : String) : Bool × GcPass :=
  (p.isCandidate key, { p with candidates := p.candidates.erase key })

/-- Adds a listed blob, if its key is a digest. -/
def add (algorithm : DigestAlgorithm) (p : GcPass) (blob : ListedBlob) : GcPass :=
  if algorithm.isDigest blob.key then
    { p with
      candidates := p.candidates.insert blob.key
      status := p.status.count blob.size }
  else p

end GcPass

/-- The order in which a sweep takes the candidates: any arrangement of them. -/
structure SweepOrder where
  arrange : List String → List String
  perm : ∀ keys, (arrange keys).Perm keys

/-- The order of the listing. -/
def SweepOrder.listed : SweepOrder := ⟨id, fun _ => .refl _⟩

/-- A collector: the catalog it works on, the shape of its keys, the size of its pages, and the
order of its sweeps. -/
structure GarbageCollector (σ : Type) where
  catalog : Catalog σ
  algorithm : DigestAlgorithm
  pageSize : Nat := defaultPageSize
  order : SweepOrder := .listed

namespace GarbageCollector

variable {σ : Type}

/-- What the collector works on. -/
def id (gc : GarbageCollector σ) : String := gc.catalog.id

/-- Lists the catalog and makes every digest key a candidate. A failure of the listing ends the
pass. -/
def begin (gc : GarbageCollector σ) : EStateM BlobError σ GcPass := fun s =>
  let (items, s) := gc.catalog.list s
  match (Pager.ofListing items gc.pageSize).readAll with
  | (_, some e) => .error e s
  | (pages, none) => .ok (pages.flatten.foldl (GcPass.add gc.algorithm) { gcId := gc.id }) s

/-- Reclaims candidates one by one; one that is gone is passed over. -/
def reclaimAll (gc : GarbageCollector σ) (delete : Bool) :
    List String → GcStatus → EStateM BlobError σ GcStatus
  | [], status => return status
  | key :: keys, status => do
    match ← gc.catalog.size? key with
    | none => gc.reclaimAll delete keys status
    | some size =>
      if delete then modify (gc.catalog.remove key)
      gc.reclaimAll delete keys (status.reclaim size)

/-- Sweeps a pass. Only a collector with the pass's id may do that. -/
def sweep (gc : GarbageCollector σ) (pass : GcPass) (delete : Bool) :
    EStateM BlobError σ GcStatus := do
  if pass.gcId = gc.id then
    gc.reclaimAll delete (gc.order.arrange pass.candidates) pass.status
  else throw (.invalid (.foreignPass pass.gcId gc.id))

end GarbageCollector

end BlobVault
