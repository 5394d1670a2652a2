import BlobVault.Proofs.Catalog
import BlobVault.Proofs.Gc.Command

/-!
# Exactness of collection

Where nobody interferes and no fault strikes, a collection on a memory store, or on a remote store
with a canonical namespace, deletes exactly the unmarked digest objects. What the objects of a store
are called decides alone: the digest objects are those whose name is the root with a digest behind
it (`PlainStore.digestKey?`), whatever else the container holds.

1. `list_catalog`, `size?_catalog`, `remove_catalog`: what the catalogs of both stores answer, in
   terms of the objects.
2. `count_digestObjects`: digest objects are counted through a list of their keys.
3. `reclaimAll_exact`: a sweep removes the objects of its keys and counts their bytes.
4. `begin_exact` and `sweep_exact`: what the listing makes of the objects, and what is left of them
   after marks and a sweep; a whole collection is the two together.
-/

namespace BlobVault

open Std (ExtTreeMap)

/-- The bytes of all blobs. -/
def Blobs.totalBytes (blobs : Blobs) : Nat := (blobs.toList.map fun blob => blob.2.length).sum

namespace PlainStore

/-- What stands in front of the keys in the names of objects. -/
def root : PlainStore → String
  | memory _ => ""
  | remote r => r.space.root

/-- The digest that stands in the name of an object behind the root, if nothing else does. -/
def digestKey? (p : PlainStore) (algorithm : DigestAlgorithm) (name : String) : Option String :=
  ((Text.dropFront? p.root.toList name.toList).map String.ofList).filter algorithm.isDigest

/-- The objects with a digest as their key, those of them that are picked by it. -/
def digestObjects (p : PlainStore) (algorithm : DigestAlgorithm) (pick : String → Bool)
    (w : World) : Blobs :=
  (p.objects w).filter fun name _ => (p.digestKey? algorithm name).any pick

variable {p : PlainStore} {algorithm : DigestAlgorithm} {w : World} {name key : String}

theorem digestKey?_eq_some_iff :
    p.digestKey? algorithm name = some key ↔
      algorithm.isDigest key = true ∧ name = p.root ++ key := by
  unfold digestKey?
  rw [Option.filter_eq_some_iff, Option.map_eq_some_iff, and_comm]
  refine and_congr_right fun _ => ?_
  constructor
  · rintro ⟨rest, hrest, rfl⟩
    rw [← String.toList_inj, Namespace.dropFront?_eq_some_iff.1 hrest, String.toList_append,
      String.toList_ofList]
  · rintro rfl
    refine ⟨key.toList, ?_, String.ofList_toList⟩
    rw [Namespace.dropFront?_eq_some_iff, String.toList_append]

theorem root_append_inj {a b : String} (h : p.root ++ a = p.root ++ b) : a = b := by
  have := congrArg String.toList h
  rw [String.toList_append, String.toList_append] at this
  exact String.toList_inj.1 (List.append_cancel_left this)

/-- Below a canonical root the address of a plain key is the root with the encoded key behind
it. -/
theorem address_of_canonical {r : RemoteStore} (hr : r.space.Canonical)
    (hkey : PlainChars key.toList) :
    (remote r).address key =
      r.space.root ++ String.ofList (ObjectPath.encodeSegment key.toList) := by
  show (r.space.pathFor key).text = _
  rw [Namespace.pathFor_of_canonical hr hkey, ← String.toList_inj, String.toList_append]
  simp

/-- Below a canonical root, verbatim keys stand for themselves. -/
theorem address_of_verbatim (hp : p.Canonical) (h : Verbatim key) :
    p.address key = p.root ++ key := by
  cases p with
  | memory m => exact (String.empty_append).symm
  | remote r =>
    rw [address_of_canonical hp h.1, h.2, String.ofList_toList]
    rfl

theorem address_of_isDigest (hp : p.Canonical) (h : algorithm.isDigest key = true) :
    p.address key = p.root ++ key :=
  address_of_verbatim hp (DigestAlgorithm.verbatim_of_isDigest h)

theorem getElem?_digestObjects {pick : String → Bool} {content : Bytes} :
    (p.digestObjects algorithm pick w)[name]? = some content ↔
      (p.objects w)[name]? = some content ∧
        ∃ key, algorithm.isDigest key = true ∧ name = p.root ++ key ∧ pick key = true := by
  unfold digestObjects
  rw [ExtTreeMap.getElem?_filter', Option.filter_eq_some_iff]
  refine and_congr_right fun _ => ?_
  rw [Option.any_eq_true]
  simp only [digestKey?_eq_some_iff, and_assoc]

theorem mem_digestObjects {pick : String → Bool} :
    name ∈ p.digestObjects algorithm pick w ↔
      name ∈ p.objects w ∧
        ∃ key, algorithm.isDigest key = true ∧ name = p.root ++ key ∧ pick key = true := by
  rw [ExtTreeMap.mem_iff_isSome_getElem?, ExtTreeMap.mem_iff_isSome_getElem?,
    Option.isSome_iff_exists, Option.isSome_iff_exists]
  simp only [getElem?_digestObjects, exists_and_right]

theorem digestObjects_of_looks {v : World} (hlooks : w.Looks v) (pick : String → Bool) :
    p.digestObjects algorithm pick v = p.digestObjects algorithm pick w := by
  unfold digestObjects
  rw [objects_of_looks hlooks]

/-! ## What the catalogs answer -/

theorem nodup_names (blobs : Blobs) : (blobs.toList.map Prod.fst).Nodup :=
  List.pairwise_map.2 (blobs.sorted_toList.imp ne_of_lt)

/-- The keys that a catalog lists, with their sizes, if no fault strikes. -/
structure Lists (p : PlainStore) (w : World) (blobs : List ListedBlob) : Prop where
  nodup : (blobs.map ListedBlob.key).Nodup
  sizes : ∀ (algorithm : DigestAlgorithm) (blob : ListedBlob), algorithm.collects blob = true →
    (blob ∈ blobs ↔ (p.objects w)[p.root ++ blob.key]?.map List.length = some blob.size)

theorem list_memory (m : MemoryStore) (w : World) :
    ∃ blobs, m.catalog.list w = (blobs.map .ok, w) ∧ (memory m).Lists w blobs := by
  refine ⟨(m.blobs w).listed, congrArg (·, w) (m.items_eq w),
    nodup_of_sorted_blobs (m.blobs w).sorted_listed, fun algorithm blob _ => ?_⟩
  rw [Blobs.mem_listed, show (memory m).root = "" from rfl, String.empty_append]
  rfl

theorem list_remote {r : RemoteStore} (hr : r.space.Canonical)
    (hw : (w.container r.container).Quiet) :
    ∃ blobs v, r.catalog.list w = (blobs.map .ok, v) ∧ w.Looks v ∧ (remote r).Lists w blobs := by
  obtain ⟨v, hlist, hlooks⟩ := RemoteStore.list_run hw
  refine ⟨r.listed w, v, hlist, hlooks, nodup_of_sorted_blobs (r.sorted_listed w), ?_⟩
  intro algorithm blob hblob
  have hshows : r.Shows blob.key :=
    (RemoteStore.shows_iff hr).2 (DigestAlgorithm.plainChars_of_isDigest hblob)
  rw [RemoteStore.mem_listed, and_iff_right hshows]
  rfl

theorem list_catalog (hp : p.Canonical) (hw : p.Quiet w) :
    ∃ blobs v, p.catalog.list w = (blobs.map .ok, v) ∧ w.Looks v ∧ p.Lists w blobs := by
  cases p with
  | memory m =>
    obtain ⟨blobs, hlist, h⟩ := list_memory m w
    exact ⟨blobs, w, hlist, .refl w, h⟩
  | remote r => exact list_remote hp hw

/-! ## Counting -/

/-- The bytes under a key. -/
def sizeOf (p : PlainStore) (w : World) (key : String) : Nat :=
  ((p.objects w)[p.root ++ key]?.map List.length).getD 0

theorem sizeOf_of_looks {v : World} (hlooks : w.Looks v) : p.sizeOf v = p.sizeOf w := by
  funext key
  unfold sizeOf
  rw [objects_of_looks hlooks]

/-- A list that has the key of each picked digest object once counts these objects. -/
theorem count_digestObjects {pick : String → Bool} {keys : List String} (hnodup : keys.Nodup)
    (hmem : ∀ key, key ∈ keys ↔
      algorithm.isDigest key = true ∧ p.root ++ key ∈ p.objects w ∧ pick key = true) :
    (p.digestObjects algorithm pick w).size = keys.length ∧
      (p.digestObjects algorithm pick w).totalBytes = (keys.map (p.sizeOf w)).sum := by
  have hperm : ((p.digestObjects algorithm pick w).toList.map fun object =>
      (object.1, object.2.length)).Perm (keys.map fun key => (p.root ++ key, p.sizeOf w key)) := by
    refine (List.perm_ext_iff_of_nodup ?_ ?_).2 ?_
    · have hnames := nodup_names (p.digestObjects algorithm pick w)
      refine List.Nodup.of_map Prod.fst ?_
      rwa [List.map_map]
    · exact hnodup.map fun a b h => root_append_inj (Prod.mk.inj h).1
    · rintro ⟨name, size⟩
      rw [List.mem_map, List.mem_map]
      constructor
      · rintro ⟨⟨name', content⟩, hobject, heq⟩
        obtain ⟨rfl, rfl⟩ := Prod.mk.inj heq
        rw [ExtTreeMap.mem_toList_iff_getElem?_eq_some, getElem?_digestObjects] at hobject
        obtain ⟨hget, key, hdigest, rfl, hpick⟩ := hobject
        refine ⟨key, (hmem key).2 ⟨hdigest, ExtTreeMap.mem_iff_isSome_getElem?.2 ?_, hpick⟩, ?_⟩
        · rw [hget]
          rfl
        · unfold sizeOf
          rw [hget]
          rfl
      · rintro ⟨key, hkey, heq⟩
        obtain ⟨rfl, rfl⟩ := Prod.mk.inj heq
        obtain ⟨hdigest, hin, hpick⟩ := (hmem key).1 hkey
        obtain ⟨content, hget⟩ :=
          Option.isSome_iff_exists.1 (ExtTreeMap.mem_iff_isSome_getElem?.1 hin)
        refine ⟨(p.root ++ key, content), ?_, ?_⟩
        · rw [ExtTreeMap.mem_toList_iff_getElem?_eq_some, getElem?_digestObjects]
          exact ⟨hget, key, hdigest, rfl, hpick⟩
        · unfold sizeOf
          rw [hget]
          rfl
  constructor
  · have := hperm.length_eq
    rwa [List.length_map, List.length_map, ExtTreeMap.length_toList] at this
  · have := (hperm.map Prod.snd).sum_nat
    rwa [List.map_map, List.map_map] at this

/-! ## Sweeping -/

/-- Removing a digest erases the object that is named after it. -/
theorem objects_remove (hp : p.Canonical) (hw : p.Quiet w) (h : algorithm.isDigest key = true) :
    p.Quiet (p.catalog.remove key w) ∧
      p.objects (p.catalog.remove key w) = (p.objects w).erase (p.root ++ key) := by
  have hlooks := remove_catalog hw key
  refine ⟨(hw.setObjects _).of_looks hlooks, ?_⟩
  rw [objects_of_looks hlooks]
  unfold drop
  rw [objects_setObjects, address_of_isDigest hp h]

/-- Where no fault strikes, reclaiming any keys goes through. If blobs are deleted it erases the
objects of the keys; it leaves all others as they are. -/
theorem reclaimAll_erases (gc : GarbageCollector World) (hcatalog : gc.catalog = p.catalog)
    (hw : p.Quiet w) (delete : Bool) (keys : List String) (status : GcStatus) :
    ∃ result u, gc.reclaimAll delete keys status w = .ok result u ∧
      ∀ name : String, (p.objects u)[name]? =
        if delete = true ∧ ∃ key ∈ keys, p.address key = name then none
        else (p.objects w)[name]? := by
  induction keys generalizing w status with
  | nil => exact ⟨status, w, rfl, fun name => by simp⟩
  | cons key keys ih =>
    obtain ⟨v, hsize, hlooks⟩ := size?_catalog hw key
    rw [← hcatalog] at hsize
    have hv : p.Quiet v := hw.of_looks hlooks
    cases hheld : p.hold? w key with
    | none =>
      rw [hheld] at hsize
      obtain ⟨result, u, hrun, hget⟩ := ih hv status
      refine ⟨result, u, (gc.reclaimAll_cons_none hsize).trans hrun, fun name => ?_⟩
      rw [hget, objects_of_looks hlooks]
      by_cases hname : p.address key = name
      · subst hname
        rw [show (p.objects w)[p.address key]? = none from hheld, ite_self, ite_self]
      · simp [hname]
    | some content =>
      rw [hheld] at hsize
      cases delete with
      | false =>
        obtain ⟨result, u, hrun, hget⟩ := ih hv (status.reclaim content.length)
        refine ⟨result, u, (gc.reclaimAll_cons_some hsize).trans hrun, fun name => ?_⟩
        rw [hget, objects_of_looks hlooks]
        simp
      | true =>
        have hdrop : (p.drop v key).Looks (p.catalog.remove key v) := remove_catalog hv key
        obtain ⟨result, u, hrun, hget⟩ :=
          ih ((hv.setObjects _).of_looks hdrop) (status.reclaim content.length)
        refine ⟨result, u, ?_, fun name => ?_⟩
        · rw [gc.reclaimAll_cons_some hsize, if_pos rfl, hcatalog]
          exact hrun
        · rw [hget, objects_of_looks hdrop]
          unfold drop
          rw [objects_setObjects, objects_of_looks hlooks, ExtTreeMap.getElem?_erase]
          by_cases hname : p.address key = name
          · simp [hname]
          · simp [hname, Std.LawfulEqCmp.compare_eq_iff_eq]

/-- Where no fault strikes, a sweep removes the objects of its keys, leaves the others as they are,
and counts the bytes that were there. -/
theorem reclaimAll_exact (hp : p.Canonical) (gc : GarbageCollector World)
    (hcatalog : gc.catalog = p.catalog) {keys : List String} (hnodup : keys.Nodup)
    (hw : p.Quiet w)
    (hkeys : ∀ key ∈ keys, algorithm.isDigest key = true ∧ p.root ++ key ∈ p.objects w)
    (status : GcStatus) :
    ∃ u, gc.reclaimAll true keys status w =
        .ok (status.reclaimEach (keys.map fun key => (key, p.sizeOf w key))) u ∧
      ∀ name, (p.objects u)[name]? =
        if ∃ key ∈ keys, name = p.root ++ key then none else (p.objects w)[name]? := by
  induction keys generalizing w status with
  | nil => exact ⟨w, rfl, fun name => by simp⟩
  | cons key keys ih =>
    obtain ⟨hnotin, hnodup⟩ := List.nodup_cons.1 hnodup
    obtain ⟨hdigest, hin⟩ := hkeys key List.mem_cons_self
    obtain ⟨v, hsize, hlooks⟩ := size?_catalog hw key
    have hfound : (p.hold? w key).map List.length = some (p.sizeOf w key) := by
      unfold hold? sizeOf
      rw [address_of_isDigest hp hdigest]
      obtain ⟨content, hget⟩ :=
        Option.isSome_iff_exists.1 (ExtTreeMap.mem_iff_isSome_getElem?.1 hin)
      rw [hget]
      rfl
    obtain ⟨hquiet, hobjects⟩ := objects_remove hp (hw.of_looks hlooks) hdigest
    rw [objects_of_looks hlooks] at hobjects
    have hother : ∀ {k}, k ∈ keys → p.root ++ key ≠ p.root ++ k := by
      intro k hk heq
      exact hnotin (root_append_inj heq ▸ hk)
    have hkeys' : ∀ k ∈ keys, algorithm.isDigest k = true ∧
        p.root ++ k ∈ p.objects (p.catalog.remove key v) := by
      intro k hk
      obtain ⟨hd, hin⟩ := hkeys k (List.mem_cons_of_mem _ hk)
      rw [hobjects, ExtTreeMap.mem_erase, Ne, Std.LawfulEqCmp.compare_eq_iff_eq]
      exact ⟨hd, hother hk, hin⟩
    have hsizes : ∀ k ∈ keys, p.sizeOf (p.catalog.remove key v) k = p.sizeOf w k := by
      intro k hk
      unfold sizeOf
      rw [hobjects, getElem?_erase_of_ne (hother hk)]
    obtain ⟨u, hrun, hget⟩ := ih hnodup hquiet hkeys' (status.reclaim (p.sizeOf w key))
    refine ⟨u, ?_, fun name => ?_⟩
    · rw [gc.reclaimAll_cons_some (by rw [hcatalog, hsize, hfound]), if_pos rfl, hcatalog, hrun,
        List.map_cons, GcStatus.reclaimEach_cons,
        List.map_congr_left fun k hk => congrArg (Prod.mk k) (hsizes k hk)]
    · rw [hget, hobjects, ExtTreeMap.getElem?_erase]
      by_cases hname : name = p.root ++ key
      · rw [if_pos (show ∃ k ∈ key :: keys, name = p.root ++ k from
          ⟨key, List.mem_cons_self, hname⟩),
          if_pos (show compare (p.root ++ key) name = .eq from hname ▸ Std.ReflCmp.compare_self),
          ite_self]
      · rw [if_neg (show ¬ compare (p.root ++ key) name = .eq from fun h =>
          hname (Std.LawfulEqCmp.eq_of_compare h).symm)]
        congr 1
        simp [hname]

/-! ## A whole collection -/

/-- The pass has the digest objects as its candidates, each once, and counts them and their
bytes. -/
structure Begun (p : PlainStore) (gc : GarbageCollector World) (w : World) (pass : GcPass) :
    Prop where
  gcId : pass.gcId = gc.id
  nodup : pass.candidates.Nodup
  mem : ∀ key, key ∈ pass.candidates ↔
    gc.algorithm.isDigest key = true ∧ p.root ++ key ∈ p.objects w
  status : pass.status = {
    numBinaries := .ofNat pass.candidates.length
    sizeBinaries := .ofNat (pass.candidates.map (p.sizeOf w)).sum }

variable {gc : GarbageCollector World} {pass : GcPass}

theorem Begun.of_looks (h : p.Begun gc w pass) {v : World} (hlooks : w.Looks v) :
    p.Begun gc v pass where
  gcId := h.gcId
  nodup := h.nodup
  mem key := by rw [objects_of_looks hlooks, h.mem]
  status := by rw [sizeOf_of_looks hlooks, h.status]

/-- What is picked from the digest objects is counted through what is picked from the candidates. -/
theorem Begun.count (h : p.Begun gc w pass) (pick : String → Bool) :
    (p.digestObjects gc.algorithm pick w).size = (pass.candidates.filter pick).length ∧
      (p.digestObjects gc.algorithm pick w).totalBytes =
        ((pass.candidates.filter pick).map (p.sizeOf w)).sum :=
  count_digestObjects (h.nodup.filter pick) fun key => by rw [List.mem_filter, h.mem, and_assoc]

/-- A listing without faults makes candidates of the digest objects and counts them. -/
theorem begin_exact (hp : p.Canonical) (hw : p.Quiet w) (gc : GarbageCollector World)
    (hcatalog : gc.catalog = p.catalog) :
    ∃ pass v, gc.begin w = .ok pass v ∧ w.Looks v ∧ p.Begun gc w pass := by
  obtain ⟨blobs, v, hlist, hlooks, hnodup, hsizes⟩ := list_catalog hp hw
  rw [← hcatalog] at hlist
  have hmem : ∀ key, key ∈ (gc.passOf blobs).candidates ↔
      gc.algorithm.isDigest key = true ∧ p.root ++ key ∈ p.objects w := by
    intro key
    rw [gc.mem_passOf, ExtTreeMap.mem_iff_isSome_getElem?, Option.isSome_iff_exists]
    constructor
    · rintro ⟨blob, hblob, hdigest, rfl⟩
      obtain ⟨content, hget, -⟩ := Option.map_eq_some_iff.1 ((hsizes _ blob hdigest).1 hblob)
      exact ⟨hdigest, content, hget⟩
    · rintro ⟨hdigest, content, hget⟩
      refine ⟨⟨key, content.length⟩, (hsizes _ ⟨key, content.length⟩ hdigest).2 ?_, hdigest, rfl⟩
      rw [hget]
      rfl
  have hcollected : ((blobs.filter gc.algorithm.collects).map ListedBlob.key).Perm
      (gc.passOf blobs).candidates := by
    refine (List.perm_ext_iff_of_nodup ?_ (gc.nodup_passOf blobs)).2 fun key => ?_
    · exact (List.filter_sublist.map _).nodup hnodup
    · rw [gc.mem_passOf, List.mem_map]
      simp only [List.mem_filter, and_assoc]
  have hsize : (blobs.filter gc.algorithm.collects).map ListedBlob.size =
      ((blobs.filter gc.algorithm.collects).map ListedBlob.key).map (p.sizeOf w) := by
    rw [List.map_map]
    refine List.map_congr_left fun blob hblob => ?_
    obtain ⟨hblob, hdigest⟩ := List.mem_filter.1 hblob
    show _ = (_ : Option Nat).getD 0
    rw [(hsizes _ blob hdigest).1 hblob]
    rfl
  refine ⟨gc.passOf blobs, v, gc.begin_ok hlist, hlooks,
    ⟨GcPass.gcId_foldl_add blobs, gc.nodup_passOf blobs, hmem, ?_⟩⟩
  rw [gc.status_passOf, ← hcollected.length_eq, List.length_map, totalSize, hsize,
    (hcollected.map (p.sizeOf w)).sum_nat]

theorem sum_filter_add (f : String → Nat) (pick : String → Bool) (keys : List String) :
    ((keys.filter pick).map f).sum + ((keys.filter fun key => !pick key).map f).sum =
      (keys.map f).sum := by
  rw [← List.sum_append_nat, ← List.map_append]
  exact ((List.filter_append_perm pick keys).map f).sum_nat

/-- What words say of a listing that they can count is true. -/
theorem Begun.totals (h : p.Begun gc w pass) :
    let all := p.digestObjects gc.algorithm (fun _ => true) w
    all.size < 2 ^ 64 → all.totalBytes < 2 ^ 64 →
      pass.status.totals = { numBinaries := all.size, sizeBinaries := all.totalBytes } := by
  intro all hnum hbytes
  have hall := h.count fun _ => true
  rw [List.filter_true] at hall
  rw [h.status, ← hall.1, ← hall.2]
  unfold GcStatus.totals
  rw [UInt64.toNat_ofNat_of_lt' hnum, UInt64.toNat_ofNat_of_lt' hbytes]
  rfl

/-- After any marks, a sweep without faults erases the unmarked digest objects and leaves every
other object as it was. It counts the marked and the unmarked ones, and their bytes, as far as words
can count. -/
theorem sweep_exact (hp : p.Canonical) (hw : p.Quiet w) (hcatalog : gc.catalog = p.catalog)
    (h : p.Begun gc w pass) (marks : List String) :
    let all := p.digestObjects gc.algorithm (fun _ => true) w
    let marked := p.digestObjects gc.algorithm (fun key => marks.contains key) w
    let unmarked := p.digestObjects gc.algorithm (fun key => !marks.contains key) w
    ∃ status u, gc.sweep (pass.markEach marks).2 true w = .ok status u ∧
      (∀ name, (p.objects u)[name]? =
        if name ∈ unmarked then none else (p.objects w)[name]?) ∧
      (all.size < 2 ^ 64 → all.totalBytes < 2 ^ 64 → status.totals = {
        numBinaries := marked.size
        sizeBinaries := marked.totalBytes
        numBinariesGc := unmarked.size
        sizeBinariesGc := unmarked.totalBytes }) := by
  intro all marked unmarked
  have hall := h.count fun _ => true
  rw [List.filter_true] at hall
  have hmarked := h.count fun key => marks.contains key
  have hunmarked := h.count fun key => !marks.contains key
  -- the unmarked candidates, in the order in which the sweep takes them
  have horder := gc.order.perm (pass.candidates.filter fun key => !marks.contains key)
  have hmem : ∀ key, key ∈ gc.order.arrange (pass.candidates.filter fun key =>
      !marks.contains key) ↔ (gc.algorithm.isDigest key = true ∧ p.root ++ key ∈ p.objects w) ∧
        (!marks.contains key) = true := by
    intro key
    rw [horder.mem_iff, List.mem_filter, h.mem]
  obtain ⟨u, hrun, hget⟩ := reclaimAll_exact hp gc hcatalog
    (horder.nodup_iff.2 (h.nodup.filter _)) hw (fun key hkey => ((hmem key).1 hkey).1) pass.status
  rw [← gc.sweep_eq { pass with
    candidates := pass.candidates.filter fun key => !marks.contains key } true h.gcId,
    ← GcPass.markEach_eq h.nodup marks] at hrun
  refine ⟨_, u, hrun, fun name => ?_, fun hnum hbytes => ?_⟩
  rotate_left
  · have hlength := List.length_eq_length_filter_add (l := pass.candidates)
      fun key => marks.contains key
    have hsum := sum_filter_add (p.sizeOf w) (fun key => marks.contains key) pass.candidates
    have hswept : ((gc.order.arrange (pass.candidates.filter fun key =>
        !marks.contains key)).map fun key => (key, p.sizeOf w key)).length = unmarked.size := by
      rw [List.length_map, horder.length_eq, hunmarked.1]
    have hsweptBytes : (((gc.order.arrange (pass.candidates.filter fun key =>
        !marks.contains key)).map fun key => (key, p.sizeOf w key)).map Prod.snd).sum =
          unmarked.totalBytes := by
      rw [List.map_map, show Prod.snd ∘ (fun key => (key, p.sizeOf w key)) = p.sizeOf w from rfl,
        (horder.map (p.sizeOf w)).sum_nat, hunmarked.2]
    have hsplit : all.size = marked.size + unmarked.size ∧
        all.totalBytes = marked.totalBytes + unmarked.totalBytes := by
      dsimp only [all, marked, unmarked]
      omega
    rw [h.status, ← hall.1, ← hall.2, GcStatus.totals_reclaimEach hnum hbytes, hswept,
      hsweptBytes, GcTotals.mk.injEq]
    · omega
    · omega
    · omega
  · rw [hget]
    refine if_congr ?_ rfl rfl
    rw [mem_digestObjects]
    constructor
    · rintro ⟨key, hkey, rfl⟩
      obtain ⟨⟨hdigest, hin⟩, hmark⟩ := (hmem key).1 hkey
      exact ⟨hin, key, hdigest, rfl, hmark⟩
    · rintro ⟨hin, key, hdigest, rfl, hmark⟩
      exact ⟨key, (hmem key).2 ⟨⟨hdigest, hin⟩, hmark⟩, rfl⟩

/-- **Exactness of collection.** Take a memory store, or a remote store with a canonical namespace,
that holds any objects and meets no fault, and list, mark any keys and sweep with nothing in
between. The listing makes candidates of the digest objects, each once, and counts them and their
bytes. A mark says yes exactly at the first mark of a candidate. The sweep erases the unmarked
digest objects and leaves every other object as it was; it counts what it erased and the marked
digest objects that it kept, and their bytes. The totals are exact as far as words can count the
digest objects and their bytes. -/
theorem collection_exact (p : PlainStore) (hp : p.Canonical) (algorithm : DigestAlgorithm)
    (pageSize : Nat) (order : SweepOrder) (w : World) (hw : p.Quiet w) (marks : List String) :
    let gc : GarbageCollector World := ⟨p.catalog, algorithm, pageSize, order⟩
    let all := p.digestObjects algorithm (fun _ => true) w
    let marked := p.digestObjects algorithm (fun key => marks.contains key) w
    let unmarked := p.digestObjects algorithm (fun key => !marks.contains key) w
    ∃ pass v status u,
      gc.begin w = .ok pass v ∧ p.objects v = p.objects w ∧
      gc.sweep (pass.markEach marks).2 true v = .ok status u ∧
      (∀ key, pass.isCandidate key = true ↔
        algorithm.isDigest key = true ∧ p.root ++ key ∈ p.objects w) ∧
      pass.candidates.Nodup ∧
      (∀ i key, marks[i]? = some key →
        ((pass.markEach marks).1[i]? = some true ↔
          pass.isCandidate key = true ∧ key ∉ marks.take i)) ∧
      (∀ name, (p.objects u)[name]? =
        if name ∈ unmarked then none else (p.objects w)[name]?) ∧
      (all.size < 2 ^ 64 → all.totalBytes < 2 ^ 64 →
        pass.status.totals = { numBinaries := all.size, sizeBinaries := all.totalBytes } ∧
        status.totals = {
          numBinaries := marked.size
          sizeBinaries := marked.totalBytes
          numBinariesGc := unmarked.size
          sizeBinariesGc := unmarked.totalBytes }) := by
  intro gc all marked unmarked
  obtain ⟨pass, v, hbegin, hlooks, hbegun⟩ := begin_exact hp hw gc rfl
  obtain ⟨status, u, hsweep, hget, htotals⟩ :=
    sweep_exact hp (hw.of_looks hlooks) rfl (hbegun.of_looks hlooks) marks
  simp only [digestObjects_of_looks hlooks] at htotals
  have hobjects := objects_of_looks hlooks p
  have hcandidate : ∀ key, pass.isCandidate key = true ↔
      algorithm.isDigest key = true ∧ p.root ++ key ∈ p.objects w := by
    intro key
    rw [← hbegun.mem]
    exact List.contains_iff_mem
  refine ⟨pass, v, status, u, hbegin, hobjects, hsweep, hcandidate, hbegun.nodup, ?_, ?_,
    fun hnum hbytes => ⟨hbegun.totals hnum hbytes, htotals hnum hbytes⟩⟩
  · intro i key hi
    rw [GcPass.getElem?_markEach hbegun.nodup, hi, hcandidate, ← hbegun.mem]
    simp
  · intro name
    rw [hget, digestObjects_of_looks hlooks, hobjects]

/-- Below a prefix, an unmarked digest goes, and what else has a name there stays. -/
theorem collection_exact_below_prefix :
    let r : RemoteStore := {
      name := "vault"
      location := ⟨"account", "box"⟩
      container := "box"
      space := ⟨"cas/"⟩
      tempDir := .scratch "temps" }
    let blobs : Blobs :=
      (ExtTreeMap.insert ∅ "cas/d41d8cd98f00b204e9800998ecf8427e" [1, 2]).insert "cas/junk" [3]
    let w : World := ({} : World).setContainer "box" { objects := blobs }
    let gc : GarbageCollector World := ⟨r.catalog, .md5, 1, .listed⟩
    (remote r).Canonical ∧ (remote r).Quiet w ∧
      ∃ pass v status u, gc.begin w = .ok pass v ∧
        gc.sweep (pass.markEach ["junk"]).2 true v = .ok status u ∧
        (u.container "box").objects["cas/d41d8cd98f00b204e9800998ecf8427e"]? = none ∧
        (u.container "box").objects["cas/junk"]? = some [3] ∧
        pass.status.totals = { numBinaries := 1, sizeBinaries := 2 } ∧
        status.totals = { numBinariesGc := 1, sizeBinariesGc := 2 } := by
  intro r blobs w gc
  have hp : (remote r).Canonical := by
    refine ⟨[['c', 'a', 's']], ?_, by decide⟩
    intro s hs
    rw [List.mem_singleton.1 hs]
    exact ⟨⟨by decide, by decide⟩, by decide⟩
  have hbox : w.container "box" = { objects := blobs } := World.container_setContainer_self _ _ _
  have hw : (remote r).Quiet w := congrArg Container.faults hbox
  have hin : (remote r).objects w = blobs := congrArg Container.objects hbox
  -- what the store holds is counted by evaluating it
  let digests := fun pick => (remote r).digestObjects .md5 pick w
  have hcounted : ((digests fun _ => true).size = 1 ∧ (digests fun _ => true).totalBytes = 2) ∧
      ((digests fun key => ["junk"].contains key).size = 0 ∧
        (digests fun key => ["junk"].contains key).totalBytes = 0) ∧
      (digests fun key => !(["junk"].contains key)).size = 1 ∧
        (digests fun key => !(["junk"].contains key)).totalBytes = 2 := by
    subst digests r w blobs gc
    cbv
  obtain ⟨hall, hkept, hgone⟩ := hcounted
  obtain ⟨pass, v, status, u, hbegin, -, hsweep, -, -, -, hobjects, htotals⟩ :=
    collection_exact (remote r) hp .md5 1 .listed w hw ["junk"]
  rw [hall.1, hall.2, hkept.1, hkept.2, hgone.1, hgone.2] at htotals
  refine ⟨hp, hw, pass, v, status, u, hbegin, hsweep, ?_, ?_, htotals (by decide) (by decide)⟩
  · refine (hobjects _).trans (if_pos ?_)
    rw [mem_digestObjects, hin]
    exact ⟨by simp [blobs], "d41d8cd98f00b204e9800998ecf8427e", by decide, rfl, by decide⟩
  · refine (hobjects _).trans ?_
    rw [if_neg, hin]
    · exact ExtTreeMap.getElem?_insert_self
    rw [mem_digestObjects]
    rintro ⟨-, key, hdigest, hname, -⟩
    obtain rfl : key = "junk" := root_append_inj (p := remote r) hname.symm
    revert hdigest
    decide

end PlainStore

end BlobVault
