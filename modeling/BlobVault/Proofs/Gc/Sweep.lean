import BlobVault.Proofs.Gc.Pass

/-!
# What a sweep removes

A sweep is watched through `Catalog.watched`, a catalog that behaves as the one it watches and
writes down every size that it reported and every removal. Nothing is assumed about the catalog
below: it may list anything, and its sizes may change or fail at any key, as when others use the
store at the same time.

1. `reclaimEach_eq`, `totals_reclaimEach`: the totals after some sizes are reclaimed, as words and,
   where words can count them, as numbers.
2. `reclaimAll_watched`: watching changes neither the end of a sweep nor the state, and the log of a
   sweep shows that it removed just the keys whose size was reported, in the order of the
   candidates, and added up these sizes.
-/

namespace BlobVault

/-- What a watched catalog did: it reported the size of a blob, or removed one. -/
inductive CatalogEvent
  | sized (key : String) (size : Nat)
  | removed (key : String)
  deriving DecidableEq, Repr

namespace CatalogEvent

/-- The keys that were removed. -/
def removals (log : List CatalogEvent) : List String :=
  log.filterMap fun
    | removed key => some key
    | sized _ _ => none

/-- The sizes that were reported, with their keys. -/
def sizes (log : List CatalogEvent) : List (String × Nat) :=
  log.filterMap fun
    | sized key size => some (key, size)
    | removed _ => none

@[simp] theorem removals_append (log more : List CatalogEvent) :
    removals (log ++ more) = removals log ++ removals more := List.filterMap_append

@[simp] theorem sizes_append (log more : List CatalogEvent) :
    sizes (log ++ more) = sizes log ++ sizes more := List.filterMap_append

/-- The events of a candidate whose size was reported: it is removed if blobs are deleted. -/
def ofReclaim (delete : Bool) (key : String) (size : Nat) : List CatalogEvent :=
  if delete then [sized key size, removed key] else [sized key size]

@[simp] theorem removals_ofReclaim (delete : Bool) (key : String) (size : Nat) :
    removals (ofReclaim delete key size) = if delete then [key] else [] := by
  cases delete <;> rfl

@[simp] theorem sizes_ofReclaim (delete : Bool) (key : String) (size : Nat) :
    sizes (ofReclaim delete key size) = [(key, size)] := by
  cases delete <;> rfl

end CatalogEvent

open CatalogEvent

/-- The catalog with a log of the sizes that it reported and of its removals. -/
def Catalog.watched {σ : Type} (c : Catalog σ) : Catalog (σ × List CatalogEvent) where
  id := c.id
  list s :=
    let (items, t) := c.list s.1
    (items, (t, s.2))
  size? key s :=
    match c.size? key s.1 with
    | .ok (some size) t => .ok (some size) (t, s.2 ++ [.sized key size])
    | .ok none t => .ok none (t, s.2)
    | .error e t => .error e (t, s.2)
  remove key s := (c.remove key s.1, s.2 ++ [.removed key])

/-- The totals of a pass as numbers. -/
structure GcTotals where
  sizeBinaries : Nat := 0
  numBinaries : Nat := 0
  sizeBinariesGc : Nat := 0
  numBinariesGc : Nat := 0

namespace GcStatus

/-- The numbers that the words of a status stand for. -/
def totals (s : GcStatus) : GcTotals :=
  ⟨s.sizeBinaries.toNat, s.numBinaries.toNat, s.sizeBinariesGc.toNat, s.numBinariesGc.toNat⟩

@[simp] theorem toNat_lower (total : UInt64) (n : Nat) :
    (lower total n).toNat = total.toNat - n :=
  UInt64.toNat_ofNat_of_lt' ((Nat.sub_le _ _).trans_lt total.toNat_lt)

@[simp] theorem lower_zero (total : UInt64) : lower total 0 = total := UInt64.ofNat_toNat

theorem lower_lower (total : UInt64) (m n : Nat) :
    lower (lower total m) n = lower total (m + n) := by
  show UInt64.ofNat ((lower total m).toNat - n) = UInt64.ofNat (total.toNat - (m + n))
  rw [toNat_lower, Nat.sub_sub]

/-- The totals after some blobs are reclaimed. -/
def reclaimEach (status : GcStatus) (sizes : List (String × Nat)) : GcStatus :=
  sizes.foldl (fun s blob => s.reclaim blob.2) status

@[simp] theorem reclaimEach_nil (status : GcStatus) : status.reclaimEach [] = status := rfl

@[simp] theorem reclaimEach_cons (status : GcStatus) (key : String) (size : Nat)
    (sizes : List (String × Nat)) :
    status.reclaimEach ((key, size) :: sizes) = (status.reclaim size).reclaimEach sizes := rfl

/-- Reclaiming moves blobs from the kept to the reclaimed; the kept totals stop at zero. -/
theorem reclaimEach_eq (status : GcStatus) (sizes : List (String × Nat)) :
    status.reclaimEach sizes =
      { sizeBinaries := lower status.sizeBinaries (sizes.map Prod.snd).sum
        numBinaries := lower status.numBinaries sizes.length
        sizeBinariesGc := status.sizeBinariesGc + .ofNat (sizes.map Prod.snd).sum
        numBinariesGc := status.numBinariesGc + .ofNat sizes.length } := by
  induction sizes generalizing status with
  | nil => simp
  | cons blob sizes ih =>
    rw [show blob = (blob.1, blob.2) from rfl, reclaimEach_cons, ih]
    simp only [reclaim, List.map_cons, List.sum_cons, List.length_cons, lower_lower,
      UInt64.ofNat_add, UInt64.ofNat_one, Nat.add_comm 1, add_assoc, add_comm]

/-- Where words can count all, they stand for the true totals after some blobs are reclaimed. -/
theorem totals_reclaimEach {num size : Nat} (hnum : num < 2 ^ 64) (hsize : size < 2 ^ 64)
    {sizes : List (String × Nat)} (hlength : sizes.length ≤ num)
    (hsum : (sizes.map Prod.snd).sum ≤ size) :
    (reclaimEach { numBinaries := .ofNat num, sizeBinaries := .ofNat size } sizes).totals = {
      sizeBinaries := size - (sizes.map Prod.snd).sum
      numBinaries := num - sizes.length
      sizeBinariesGc := (sizes.map Prod.snd).sum
      numBinariesGc := sizes.length } := by
  unfold totals
  rw [reclaimEach_eq]
  simp only [toNat_lower, UInt64.zero_add, UInt64.toNat_ofNat_of_lt' hnum,
    UInt64.toNat_ofNat_of_lt' hsize, UInt64.toNat_ofNat_of_lt' (hlength.trans_lt hnum),
    UInt64.toNat_ofNat_of_lt' (hsum.trans_lt hsize)]

end GcStatus

namespace GarbageCollector

variable {σ : Type} (gc : GarbageCollector σ)

/-- The collector on the watched catalog. -/
def watched : GarbageCollector (σ × List CatalogEvent) := { gc with catalog := gc.catalog.watched }

/-! ## Reclaiming -/

theorem reclaimAll_cons_some {key : String} {keys : List String} {status : GcStatus}
    {delete : Bool} {s t : σ} {size : Nat} (h : gc.catalog.size? key s = .ok (some size) t) :
    gc.reclaimAll delete (key :: keys) status s =
      gc.reclaimAll delete keys (status.reclaim size)
        (if delete then gc.catalog.remove key t else t) := by
  show (gc.catalog.size? key >>= _ : EStateM BlobError σ GcStatus) s = _
  cases delete <;> simp only [bind, EStateM.bind, h] <;> rfl

theorem reclaimAll_cons_none {key : String} {keys : List String} {status : GcStatus}
    {delete : Bool} {s t : σ} (h : gc.catalog.size? key s = .ok none t) :
    gc.reclaimAll delete (key :: keys) status s = gc.reclaimAll delete keys status t := by
  show (gc.catalog.size? key >>= _ : EStateM BlobError σ GcStatus) s = _
  simp only [bind, EStateM.bind, h]

theorem reclaimAll_cons_error {key : String} {keys : List String} {status : GcStatus}
    {delete : Bool} {s t : σ} {e : BlobError} (h : gc.catalog.size? key s = .error e t) :
    gc.reclaimAll delete (key :: keys) status s = .error e t := by
  show (gc.catalog.size? key >>= _ : EStateM BlobError σ GcStatus) s = _
  simp only [bind, EStateM.bind, h]

theorem watched_cons_some {key : String} {keys : List String} {status : GcStatus} {delete : Bool}
    {s t : σ} {size : Nat} (h : gc.catalog.size? key s = .ok (some size) t)
    (log : List CatalogEvent) :
    gc.watched.reclaimAll delete (key :: keys) status (s, log) =
      gc.watched.reclaimAll delete keys (status.reclaim size)
        (if delete then gc.catalog.remove key t else t, log ++ ofReclaim delete key size) := by
  have hw : gc.watched.catalog.size? key (s, log) =
      .ok (some size) (t, log ++ [.sized key size]) := by
    show Catalog.size? gc.catalog.watched key (s, log) = _
    simp only [Catalog.watched, h]
  rw [gc.watched.reclaimAll_cons_some hw]
  cases delete with
  | false => rfl
  | true =>
    show gc.watched.reclaimAll true keys _
      (gc.catalog.remove key t, log ++ [.sized key size] ++ [.removed key]) = _
    rw [List.append_assoc]
    rfl

theorem watched_cons_none {key : String} {keys : List String} {status : GcStatus} {delete : Bool}
    {s t : σ} (h : gc.catalog.size? key s = .ok none t) (log : List CatalogEvent) :
    gc.watched.reclaimAll delete (key :: keys) status (s, log) =
      gc.watched.reclaimAll delete keys status (t, log) := by
  refine gc.watched.reclaimAll_cons_none ?_
  show Catalog.size? gc.catalog.watched key (s, log) = _
  simp only [Catalog.watched, h]

/-- A watched sweep ends as the sweep that it watches. Its log shows some of the candidates, in
order, each with the size that was reported for it; deleting removes just these, and a sweep that
goes through has reclaimed just these. -/
theorem reclaimAll_watched (delete : Bool) (keys : List String) (status : GcStatus) (s : σ)
    (log : List CatalogEvent) :
    ∃ (t : σ) (more : List CatalogEvent),
      ((sizes more).map Prod.fst).Sublist keys ∧
      removals more = (if delete then (sizes more).map Prod.fst else []) ∧
      ((∃ e, gc.reclaimAll delete keys status s = .error e t ∧
          gc.watched.reclaimAll delete keys status (s, log) = .error e (t, log ++ more)) ∨
        (gc.reclaimAll delete keys status s = .ok (status.reclaimEach (sizes more)) t ∧
          gc.watched.reclaimAll delete keys status (s, log) =
            .ok (status.reclaimEach (sizes more)) (t, log ++ more))) := by
  induction keys generalizing status s log with
  | nil =>
    refine ⟨s, [], .slnil, by cases delete <;> rfl, .inr ⟨rfl, ?_⟩⟩
    rw [List.append_nil]
    rfl
  | cons key keys ih =>
    cases hsize : gc.catalog.size? key s with
    | error e t =>
      have hw : gc.watched.catalog.size? key (s, log) = .error e (t, log) := by
        show Catalog.size? gc.catalog.watched key (s, log) = _
        simp only [Catalog.watched, hsize]
      refine ⟨t, [], List.nil_sublist _, by cases delete <;> rfl, .inl ⟨e, ?_, ?_⟩⟩
      · exact gc.reclaimAll_cons_error hsize
      · rw [gc.watched.reclaimAll_cons_error hw, List.append_nil]
    | ok answer t =>
      cases answer with
      | none =>
        obtain ⟨u, more, hsub, hrem, hrun⟩ := ih status t log
        refine ⟨u, more, hsub.cons _, hrem, ?_⟩
        rw [gc.reclaimAll_cons_none hsize, gc.watched_cons_none hsize]
        exact hrun
      | some size =>
        obtain ⟨u, more, hsub, hrem, hrun⟩ := ih (status.reclaim size)
          (if delete then gc.catalog.remove key t else t) (log ++ ofReclaim delete key size)
        refine ⟨u, ofReclaim delete key size ++ more, ?_, ?_, ?_⟩
        · simpa using hsub
        · rw [removals_append, sizes_append, hrem]
          cases delete <;> simp
        · rw [gc.reclaimAll_cons_some hsize, gc.watched_cons_some hsize, ← List.append_assoc,
            sizes_append, sizes_ofReclaim, List.singleton_append,
            GcStatus.reclaimEach_cons]
          exact hrun

end GarbageCollector

end BlobVault
