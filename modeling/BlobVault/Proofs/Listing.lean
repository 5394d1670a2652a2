import BlobVault.Proofs.Gc.Exact
import BlobVault.Proofs.PlainStore
import BlobVault.Scroll

/-!
# Listings of a namespace

A remote store writes a blob to the path of the text that begins with its root, and it lists the
paths that begin with the root as it was given. The two agree exactly if the root is canonical: then
a listing has every blob that was written under a digest key, and scrolls, clearing and collections
work on all of them. Below any other root the listing is empty, whatever was written.

1. `writes_held`: what a store holds after a list of writes under accepted keys, `writes_spec`:
   under digest keys.
2. `list_canonical`, `list_not_canonical`: the two kinds of listings.
3. `readOut_ofRemote`, `clear_listed`, `sweep_all`: what is made of a listing.
4. `listing_complete_iff`: all of it together, for every root.
-/

namespace BlobVault

open Std (ExtTreeMap)
open KeyStrategy (Accepted)
open ObjectPath (IsProper)

/-! ## Writes -/

namespace WriteRequest

/-- The request brings content for a key of some kind, from a stream or from a file of the
caller's. -/
structure Brings (kind : String → Prop) (w : World) (q : WriteRequest) : Prop where
  outside : ∀ path, q.source = .file path → path.IsOutside
  planned : ∃ key content, q.plan w = .ok (key, .ok content) ∧ kind key

/-- What the requests bring, in their order. -/
def brought (w : World) (requests : List WriteRequest) : List (String × Bytes) :=
  requests.filterMap fun q =>
    match q.plan w with
    | .ok (key, .ok content) => some (key, content)
    | _ => none

/-- The first content that the requests bring for a key. -/
def firstBrought (w : World) (requests : List WriteRequest) (key : String) : Option Bytes :=
  (brought w requests).lookup key

variable {w v : World} {q : WriteRequest}

theorem brought_cons {key : String} {content : Bytes} (h : q.plan w = .ok (key, .ok content))
    (requests : List WriteRequest) :
    brought w (q :: requests) = (key, content) :: brought w requests := by
  unfold brought
  rw [List.filterMap_cons, h]

/-- The plan of a request depends on the files of the caller's alone. -/
theorem plan_of_files (houtside : ∀ path, q.source = .file path → path.IsOutside)
    (hfiles : v.files = w.files) : q.plan v = q.plan w := by
  unfold plan
  cases hsource : q.source with
  | stream chunks => rfl
  | file path =>
    dsimp only
    rw [World.read_of_files (houtside path hsource) hfiles]

variable {kind : String → Prop}

theorem Brings.of_files (h : q.Brings kind w) (hfiles : v.files = w.files) : q.Brings kind v := by
  refine ⟨h.outside, ?_⟩
  rw [plan_of_files h.outside hfiles]
  exact h.planned

theorem brought_of_files {requests : List WriteRequest} (h : ∀ q ∈ requests, q.Brings kind w)
    (hfiles : v.files = w.files) : brought v requests = brought w requests := by
  unfold brought
  refine List.filterMap_congr fun q hq => ?_
  rw [plan_of_files (h q hq).outside hfiles]

theorem kind_of_mem_brought {requests : List WriteRequest} (h : ∀ q ∈ requests, q.Brings kind w)
    {entry : String × Bytes} (hentry : entry ∈ brought w requests) : kind entry.1 := by
  unfold brought at hentry
  obtain ⟨q, hq, hplanned⟩ := List.mem_filterMap.1 hentry
  obtain ⟨key, content, hplan, hkey⟩ := (h q hq).planned
  rw [hplan] at hplanned
  obtain rfl : (key, content) = entry := Option.some.inj hplanned
  exact hkey

theorem mem_keys_iff {requests : List WriteRequest} {key : String} :
    key ∈ (brought w requests).map Prod.fst ↔ firstBrought w requests key ≠ none := by
  unfold firstBrought
  rw [← Option.isSome_iff_ne_none, List.lookup_isSome_iff, List.mem_map]
  exact exists_congr fun entry => and_congr_right fun _ => by rw [beq_iff_eq, eq_comm]

end WriteRequest

open WriteRequest (brought firstBrought)

namespace PlainStore

variable {p : PlainStore} {w : World} {algorithm : DigestAlgorithm}

/-- All names of objects are paths. -/
def Proper (p : PlainStore) (w : World) : Prop := ∀ name ∈ p.objects w, IsProper name

theorem proper_of_containers {r : RemoteStore} (h : w.containers = ∅) : (remote r).Proper w := by
  unfold Proper
  rw [objects_of_containers h]
  exact fun name hname => absurd hname ExtTreeMap.not_mem_empty

theorem Proper.accept {r : RemoteStore} (h : (remote r).Proper w) (key : String) (content : Bytes) :
    (remote r).Proper ((remote r).accept w key content) := by
  unfold PlainStore.accept
  split
  · exact h
  · intro name hname
    unfold put at hname
    rw [objects_setObjects, Std.ExtTreeMap.mem_insert, Std.LawfulEqCmp.compare_eq_iff_eq] at hname
    rcases hname with rfl | hname
    · exact ObjectPath.isProper_ofChars _
    · exact h name hname

theorem Proper.of_looks {v : World} (hlooks : w.Looks v) (h : p.Proper w) : p.Proper v := by
  unfold Proper
  rw [objects_of_looks hlooks]
  exact h

/-- Accepting content for a key concerns the object at its address alone. -/
theorem objects_accept_of_ne (p : PlainStore) (w : World) {key name : String} (content : Bytes)
    (hne : p.address key ≠ name) :
    (p.objects (p.accept w key content))[name]? = (p.objects w)[name]? := by
  unfold accept
  split
  · rfl
  · unfold put
    rw [objects_setObjects, getElem?_insert_of_ne hne]

/-- Without faults a list of writes goes through: each key holds what it held before, or else the
first content that was brought for it. -/
theorem writes_held {r : RemoteStore} (hr : r.space.Closed) {kind : String → Prop}
    (hkind : ∀ key, kind key → Accepted key) {requests : List WriteRequest}
    (hrequests : ∀ q ∈ requests, q.Brings kind w)
    (hw : (remote r).Quiet w) (htemp : ∃ files, w.temps? r.tempDir = some files) :
    ∃ keys v, requests.mapM (Store.remote r).write w = .ok keys v ∧
      keys = (brought w requests).map Prod.fst ∧ w.Follows v ∧
      (∃ files, v.temps? r.tempDir = some files) ∧
      (∀ key, Accepted key → (remote r).hold? v key =
        ((remote r).hold? w key).or ((brought w requests).lookup key)) ∧
      (∀ name, (∀ key ∈ (brought w requests).map Prod.fst, (remote r).address key ≠ name) →
        ((remote r).objects v)[name]? = ((remote r).objects w)[name]?) ∧
      ((remote r).Proper w → (remote r).Proper v) := by
  induction requests generalizing w with
  | nil =>
    refine ⟨[], w, rfl, rfl, .refl w, htemp, fun key _ => ?_, fun _ _ => rfl, id⟩
    exact (Option.or_none).symm
  | cons q requests ih =>
    obtain ⟨key, content, hplan, hkey⟩ := (hrequests q List.mem_cons_self).planned
    obtain ⟨u, hrun, hlooks⟩ := write_ok (p := remote r) hw htemp hplan
    have hfiles : u.files = w.files := by
      rw [hlooks.rest, accept_rest]
    have hrest : ∀ q ∈ requests, q.Brings kind w := fun q hq =>
      hrequests q (List.mem_cons_of_mem _ hq)
    have hfollows := ((remote r).follows_accept w key content).trans hlooks.follows
    have htemp' : ∃ files, u.temps? r.tempDir = some files := by
      rw [hlooks.temps?, temps?_accept]
      exact htemp
    obtain ⟨keys, v, hruns, hkeys, hv, hvtemp, hhold, hothers, hproper⟩ :=
      ih (fun q hq => (hrest q hq).of_files hfiles) (hw.of_follows hfollows) htemp'
    rw [WriteRequest.brought_of_files hrest hfiles] at hkeys hhold hothers
    refine ⟨key :: keys, v, ?_, ?_, hfollows.trans hv, hvtemp, fun other hother => ?_,
      fun name hname => ?_, fun h => ?_⟩
    · rw [List.mapM_cons]
      exact (run_bind_ok hrun _).trans (run_bind_ok hruns _)
    · rw [WriteRequest.brought_cons hplan, hkeys]
      rfl
    · rw [hhold other hother, hold?_of_looks hlooks, WriteRequest.brought_cons hplan,
        List.lookup_cons]
      by_cases hsame : other = key
      · subst hsame
        rw [hold?_accept_self]
        cases hheld : (remote r).hold? w other <;> simp
      · have hne : (other == key) = false := by simpa using hsame
        rw [hold?_accept_of_ne (p := remote r) hr (hkind key hkey) hother (Ne.symm hsame), hne]
    · rw [WriteRequest.brought_cons hplan, List.map_cons, List.forall_mem_cons] at hname
      rw [hothers name hname.2, objects_of_looks hlooks, objects_accept_of_ne _ w content hname.1]
    · exact hproper ((h.accept key content).of_looks hlooks)

/-- The same for digest keys. -/
theorem writes_spec {r : RemoteStore} (hr : r.space.Closed) {requests : List WriteRequest}
    (hrequests : ∀ q ∈ requests, q.Brings (algorithm.isDigest · = true) w)
    (hw : (remote r).Quiet w) (htemp : ∃ files, w.temps? r.tempDir = some files) :
    ∃ keys v, requests.mapM (Store.remote r).write w = .ok keys v ∧
      keys = (brought w requests).map Prod.fst ∧ (remote r).Quiet v ∧
      (∀ key, algorithm.isDigest key = true → (remote r).hold? v key =
        ((remote r).hold? w key).or ((brought w requests).lookup key)) ∧
      ((remote r).Proper w → (remote r).Proper v) := by
  obtain ⟨keys, v, hruns, hkeys, hv, -, hhold, -, hproper⟩ := writes_held hr
    (fun _ => KeyStrategy.accepted_of_isDigest) hrequests hw htemp
  exact ⟨keys, v, hruns, hkeys, hw.of_follows hv,
    fun key hkey => hhold key (KeyStrategy.accepted_of_isDigest hkey), hproper⟩

end PlainStore

/-! ## Listings -/

/-- The listed blobs are, as far as their keys are digests, exactly the kept ones, each once and
with its size. -/
structure Enumerates (algorithm : DigestAlgorithm) (kept : String → Option Bytes)
    (blobs : List ListedBlob) : Prop where
  nodup : (blobs.map ListedBlob.key).Nodup
  sizes : ∀ blob : ListedBlob, algorithm.isDigest blob.key = true →
    (blob ∈ blobs ↔ (kept blob.key).map List.length = some blob.size)

/-- Nothing kept is left out of an enumeration. -/
theorem Enumerates.mem {algorithm : DigestAlgorithm} {kept : String → Option Bytes}
    {blobs : List ListedBlob} (h : Enumerates algorithm kept blobs) {key : String}
    (hkey : algorithm.isDigest key = true) {content : Bytes} (hkept : kept key = some content) :
    (⟨key, content.length⟩ : ListedBlob) ∈ blobs :=
  (h.sizes ⟨key, content.length⟩ hkey).2 (by rw [hkept]; rfl)

namespace RemoteStore

variable {r : RemoteStore} {w : World} {algorithm : DigestAlgorithm}
  {kept : String → Option Bytes}

/-- Below a canonical root a listing has everything that is held under digest keys. -/
theorem list_canonical (hr : r.space.Canonical) (hw : (w.container r.container).Quiet)
    (hkept : ∀ key, algorithm.isDigest key = true →
      (PlainStore.remote r).hold? w key = kept key) :
    ∃ blobs v, r.list w = (blobs.map .ok, v) ∧ w.Looks v ∧ Enumerates algorithm kept blobs := by
  obtain ⟨blobs, v, hlist, hlooks, hnodup, hsizes⟩ := PlainStore.list_remote hr hw
  refine ⟨blobs, v, hlist, hlooks, hnodup, fun blob hblob => ?_⟩
  rw [hsizes algorithm blob hblob, ← hkept blob.key hblob]
  unfold PlainStore.hold?
  rw [PlainStore.address_of_isDigest (p := .remote r) hr hblob]

/-- Below another root a listing is empty, whatever the container holds. -/
theorem list_not_canonical (hclosed : r.space.Closed) (hr : ¬ r.space.Canonical)
    (hw : (w.container r.container).Quiet) (hproper : (PlainStore.remote r).Proper w) :
    ∃ v, r.list w = ([], v) ∧ w.Looks v := by
  obtain ⟨v, hlist, hlooks⟩ := list_run hw
  have hempty : r.listed w = [] := by
    apply List.eq_nil_iff_forall_not_mem.2
    intro blob hblob
    obtain ⟨⟨hplain, htop⟩, hsize⟩ := mem_listed.1 hblob
    obtain ⟨content, hcontent, -⟩ := Option.map_eq_some_iff.1 hsize
    have hname : r.space.root ++ blob.key ∈ (PlainStore.remote r).objects w := by
      simp [PlainStore.objects, ExtTreeMap.mem_iff_isSome_getElem?, hcontent]
    have hkey : r.space.localKey? ⟨r.space.root ++ blob.key⟩ = some blob.key := by
      rw [Namespace.localKey?_eq_some_iff]
      simp [hplain]
    exact hr (Namespace.canonical_of_localKey? hclosed (hproper _ hname) htop hkey)
  rw [hempty] at hlist
  exact ⟨v, hlist, hlooks⟩

end RemoteStore

/-! ## Scrolls -/

/-- At most so many batches of a scroll, and the error that it ends with before that. -/
def Scroll.readOut (s : Scroll) (w : World) : Nat → List Page × Option BlobError
  | 0 => ([], none)
  | n + 1 =>
    match s.next w with
    | ((.ok page, s), w) =>
      let (pages, failure?) := s.readOut w n
      (page :: pages, failure?)
    | ((.error e, _), _) => ([], some e)

namespace Scroll

variable {id : String} {size : Nat} {items : List ListingItem} {w : World}

theorem next_taken {page? : Option Page} {rest : List ListingItem}
    (h : (⟨size, items⟩ : Pager).next = (.ok page?, ⟨size, rest⟩)) :
    (⟨id, size, .taken items⟩ : Scroll).next w =
      ((page?.elim (.error .noSuchElement) .ok, ⟨id, size, .taken rest⟩), w) := by
  unfold next pager moved
  simp only [h]
  cases page? <;> rfl

/-- A scroll gives the pages of its listing and ends. -/
theorem readOut_taken {pages : List Page}
    (h : (⟨size, items⟩ : Pager).readAll = (pages, none)) :
    (⟨id, size, .taken items⟩ : Scroll).readOut w (pages.length + 1) =
      (pages, some .noSuchElement) := by
  induction pages generalizing items with
  | nil =>
    obtain ⟨rest, hnext⟩ := Pager.next_of_readAll_nil h
    unfold readOut
    rw [next_taken hnext]
    rfl
  | cons page pages ih =>
    obtain ⟨rest, hnext, hrest⟩ := Pager.next_of_readAll_cons h
    unfold readOut
    rw [next_taken hnext]
    simp only [Option.elim_some]
    rw [List.length_cons, ih hrest]

/-- What is left of a listing that was taken is a matter of the listing alone. -/
theorem readOut_taken_world (id : String) (size : Nat) (items : List ListingItem) (w v : World)
    (n : Nat) : (⟨id, size, .taken items⟩ : Scroll).readOut v n =
      (⟨id, size, .taken items⟩ : Scroll).readOut w n := by
  induction n generalizing items with
  | zero => rfl
  | succ n ih =>
    obtain ⟨batch, rest, hnext⟩ : ∃ batch rest, ∀ u : World,
        (⟨id, size, .taken items⟩ : Scroll).next u = ((batch, ⟨id, size, .taken rest⟩), u) :=
      ⟨((⟨id, size, .taken items⟩ : Scroll).next w).1.1, (⟨size, items⟩ : Pager).next.2.rest,
        fun _ => rfl⟩
    unfold readOut
    rw [hnext, hnext]
    cases batch with
    | ok page => simp only [ih]
    | error e => rfl

/-- The listing of a scroll over a remote store is taken at its first batch. -/
theorem readOut_untaken {r : RemoteStore} {v : World} (h : r.list w = (items, v)) (n : Nat) :
    (⟨id, size, .untaken r⟩ : Scroll).readOut w (n + 1) =
      (⟨id, size, .taken items⟩ : Scroll).readOut v (n + 1) := by
  have hpager : (⟨id, size, .untaken r⟩ : Scroll).pager w =
      (⟨id, size, .taken items⟩ : Scroll).pager v := by
    unfold pager
    simp only [h]
  have hnext : (⟨id, size, .untaken r⟩ : Scroll).next w =
      (⟨id, size, .taken items⟩ : Scroll).next v := by
    unfold next
    rw [hpager]
    rfl
  unfold readOut
  rw [hnext]

/-- A scroll over a remote store gives everything that its listing has, and ends. -/
theorem readOut_ofRemote {r : RemoteStore} {v : World} {blobs : List ListedBlob}
    (h : r.list w = (blobs.map .ok, v)) (batchSize : Nat) :
    ∃ n pages, (ofRemote r batchSize).readOut w n = (pages, some .noSuchElement) ∧
      pages.flatten = blobs := by
  obtain ⟨hflatten, hnone⟩ := Pager.readAll_map_ok (Nat.le_max_right batchSize 1) blobs
  exact ⟨_, _, (readOut_untaken h _).trans (readOut_taken (Prod.ext rfl hnone)), hflatten⟩

/-- A scroll over an empty listing gives nothing. -/
theorem readOut_empty {r : RemoteStore} {v : World} (h : r.list w = ([], v)) (batchSize n : Nat) :
    ((ofRemote r batchSize).readOut w n).1 = [] := by
  cases n with
  | zero => rfl
  | succ n =>
    have hnext : (⟨max batchSize 1, []⟩ : Pager).next = (.ok none, ⟨max batchSize 1, []⟩) := by
      unfold Pager.next
      cases max batchSize 1 <;> rfl
    refine (congrArg Prod.fst (readOut_untaken h n)).trans ?_
    unfold readOut
    rw [next_taken hnext]
    rfl

end Scroll

/-! ## Clearing and collecting -/

namespace RemoteStore

variable {r : RemoteStore} {w : World} {algorithm : DigestAlgorithm}
  {kept : String → Option Bytes}

/-- Removing some keys removes the objects at their addresses, and no others. -/
theorem objects_foldl_erase {blobs : List ListedBlob} (hw : (PlainStore.remote r).Quiet w)
    (name : String) :
    ((PlainStore.remote r).objects (blobs.foldl (fun w blob => r.erase blob.key w) w))[name]? =
      if ∃ blob ∈ blobs, (r.pathFor blob.key).text = name then none
      else ((PlainStore.remote r).objects w)[name]? := by
  induction blobs generalizing w with
  | nil => simp
  | cons blob blobs ih =>
    have hlooks : ((PlainStore.remote r).drop w blob.key).Looks (r.erase blob.key w) :=
      PlainStore.remove_catalog (p := .remote r) hw blob.key
    have hquiet : (PlainStore.remote r).Quiet (r.erase blob.key w) :=
      (hw.setObjects _).of_looks hlooks
    rw [List.foldl_cons, ih hquiet, PlainStore.objects_of_looks hlooks]
    unfold PlainStore.drop
    rw [PlainStore.objects_setObjects, ExtTreeMap.getElem?_erase]
    have haddress : compare ((PlainStore.remote r).address blob.key) name = .eq ↔
        (r.pathFor blob.key).text = name := Std.LawfulEqCmp.compare_eq_iff_eq
    simp only [haddress, List.exists_mem_cons_iff]
    by_cases hfirst : (r.pathFor blob.key).text = name
    · simp [hfirst]
    · simp [hfirst]

/-- After the removal of some keys nothing is held under them, nor under what was free before. -/
theorem hold?_foldl_erase {blobs : List ListedBlob} (hw : (PlainStore.remote r).Quiet w)
    {key : String}
    (h : (PlainStore.remote r).hold? w key = none ∨ key ∈ blobs.map ListedBlob.key) :
    (PlainStore.remote r).hold? (blobs.foldl (fun w blob => r.erase blob.key w) w) key = none := by
  unfold PlainStore.hold?
  rw [objects_foldl_erase hw, ite_eq_left_iff]
  intro hnot
  refine h.resolve_right fun hmem => hnot ?_
  obtain ⟨blob, hblob, rfl⟩ := List.mem_map.1 hmem
  exact ⟨blob, hblob, rfl⟩

/-- Clearing removes what the listing has. -/
theorem clear_listed {blobs : List ListedBlob} {v : World} (h : r.list w = (blobs.map .ok, v)) :
    r.clear w = .ok () (blobs.foldl (fun w blob => r.erase blob.key w) v) := by
  obtain ⟨hflatten, hnone⟩ := Pager.readAll_ofListing blobs defaultPageSize
  unfold clear
  simp only [h]
  cases hread : (Pager.ofListing (blobs.map .ok) defaultPageSize).readAll with
  | mk pages failure? =>
    rw [hread] at hflatten hnone
    obtain rfl : failure? = none := hnone
    rw [← hflatten]

/-- The collector of the store. -/
def collector (r : RemoteStore) (algorithm : DigestAlgorithm) (pageSize : Nat)
    (order : SweepOrder) : GarbageCollector World :=
  ⟨r.catalog, algorithm, pageSize, order⟩

/-- An empty listing leaves a sweep nothing to do. -/
theorem sweep_empty {v : World} (h : r.list w = ([], v)) (algorithm : DigestAlgorithm)
    (pageSize : Nat) (order : SweepOrder) :
    ∃ pass status, (r.collector algorithm pageSize order).begin w = .ok pass v ∧
      (r.collector algorithm pageSize order).sweep pass true v = .ok status v := by
  have hlist : r.catalog.list w = (([] : List ListedBlob).map .ok, v) := h
  have hbegin := (r.collector algorithm pageSize order).begin_ok hlist
  have harrange : order.arrange [] = [] := List.Perm.eq_nil (order.perm [])
  refine ⟨_, ({} : GcStatus), hbegin, ?_⟩
  unfold GarbageCollector.sweep
  rw [if_pos (GcPass.gcId_foldl_add [])]
  exact congrArg (fun keys => GarbageCollector.reclaimAll _ true keys _ v) harrange

/-- A sweep without marks reclaims every blob under a digest key. -/
theorem sweep_all (hr : r.space.Canonical) (hw : (PlainStore.remote r).Quiet w) (pageSize : Nat)
    (order : SweepOrder) :
    ∃ pass v status u, (r.collector algorithm pageSize order).begin w = .ok pass v ∧
      (r.collector algorithm pageSize order).sweep pass true v = .ok status u ∧
      ∀ key, algorithm.isDigest key = true → (PlainStore.remote r).hold? u key = none := by
  obtain ⟨pass, v, hbegin, hlooks, hbegun⟩ :=
    PlainStore.begin_exact (p := .remote r) hr hw (r.collector algorithm pageSize order) rfl
  obtain ⟨status, u, hsweep, hget, -⟩ := PlainStore.sweep_exact (p := .remote r) hr
    (hw.of_looks hlooks) rfl (hbegun.of_looks hlooks) []
  refine ⟨pass, v, status, u, hbegin, hsweep, fun key hkey => ?_⟩
  unfold PlainStore.hold?
  rw [PlainStore.address_of_isDigest (p := .remote r) hr hkey, hget]
  split
  · rfl
  · rename_i hnot
    rw [PlainStore.mem_digestObjects, not_and] at hnot
    by_contra hheld
    refine hnot ?_ ⟨key, hkey, rfl, rfl⟩
    rw [Std.ExtTreeMap.mem_iff_isSome_getElem?]
    exact Option.isSome_iff_ne_none.2 hheld

/-! ## Complete listings -/

/-- A listing has every kept blob. -/
def ListsAll (r : RemoteStore) (algorithm : DigestAlgorithm) (kept : String → Option Bytes)
    (w : World) : Prop :=
  ∃ blobs, (r.list w).1 = blobs.map .ok ∧ Enumerates algorithm kept blobs

/-- A scroll gives every kept blob, in batches, and ends. -/
def ExportsAll (r : RemoteStore) (algorithm : DigestAlgorithm) (kept : String → Option Bytes)
    (batchSize : Nat) (w : World) : Prop :=
  ∃ n pages, (Scroll.ofRemote r batchSize).readOut w n = (pages, some .noSuchElement) ∧
    Enumerates algorithm kept pages.flatten

/-- Clearing leaves nothing under digest keys. -/
def ClearsAll (r : RemoteStore) (algorithm : DigestAlgorithm) (w : World) : Prop :=
  ∃ v, r.clear w = .ok () v ∧
    ∀ key, algorithm.isDigest key = true → (PlainStore.remote r).hold? v key = none

/-- A collection without marks leaves nothing under digest keys. -/
def ReclaimsAll (r : RemoteStore) (algorithm : DigestAlgorithm) (pageSize : Nat)
    (order : SweepOrder) (w : World) : Prop :=
  ∃ pass v status u, (r.collector algorithm pageSize order).begin w = .ok pass v ∧
    (r.collector algorithm pageSize order).sweep pass true v = .ok status u ∧
    ∀ key, algorithm.isDigest key = true → (PlainStore.remote r).hold? u key = none

/-- Below a canonical root a listing, a scroll, clearing and a collection reach every blob under a
digest key. -/
theorem reachesAll_of_canonical (hr : r.space.Canonical) (hw : (PlainStore.remote r).Quiet w)
    (hkept : ∀ key, algorithm.isDigest key = true →
      (PlainStore.remote r).hold? w key = kept key)
    (batchSize pageSize : Nat) (order : SweepOrder) :
    r.ListsAll algorithm kept w ∧ r.ExportsAll algorithm kept batchSize w ∧
      r.ClearsAll algorithm w ∧ r.ReclaimsAll algorithm pageSize order w := by
  obtain ⟨blobs, v, hlist, hlooks, hall⟩ := list_canonical hr hw hkept
  refine ⟨⟨blobs, by rw [hlist], hall⟩, ?_, ⟨_, clear_listed hlist, fun key hkey => ?_⟩,
    sweep_all hr hw pageSize order⟩
  · obtain ⟨n, pages, hrun, rfl⟩ := Scroll.readOut_ofRemote hlist batchSize
    exact ⟨n, pages, hrun, hall⟩
  · refine hold?_foldl_erase (hw.of_looks hlooks) ?_
    rw [PlainStore.hold?_of_looks hlooks, hkept key hkey]
    cases hheld : kept key with
    | none => exact .inl rfl
    | some content => exact .inr (List.mem_map.2 ⟨_, hall.mem hkey hheld, rfl⟩)

/-- Below another root none of them reaches any. -/
theorem reachesNone_of_not_canonical (hclosed : r.space.Closed) (hr : ¬ r.space.Canonical)
    (hw : (PlainStore.remote r).Quiet w) (hproper : (PlainStore.remote r).Proper w)
    {key : String} (hkey : algorithm.isDigest key = true) {content : Bytes}
    (hheld : (PlainStore.remote r).hold? w key = some content) (hkept : kept key = some content)
    (batchSize pageSize : Nat) (order : SweepOrder) :
    (r.list w).1 = [] ∧ ¬ r.ListsAll algorithm kept w ∧ ¬ r.ExportsAll algorithm kept batchSize w ∧
      ¬ r.ClearsAll algorithm w ∧ ¬ r.ReclaimsAll algorithm pageSize order w := by
  obtain ⟨v, hlist, hlooks⟩ := list_not_canonical hclosed hr hw hproper
  have hstays : (PlainStore.remote r).hold? v key = some content := by
    rw [PlainStore.hold?_of_looks hlooks, hheld]
  refine ⟨by rw [hlist], ?_, ?_, ?_, ?_⟩
  · rintro ⟨blobs, hblobs, hall⟩
    rw [hlist, eq_comm, List.map_eq_nil_iff] at hblobs
    subst hblobs
    exact List.not_mem_nil (hall.mem hkey hkept)
  · rintro ⟨n, pages, hrun, hall⟩
    have hpages := Scroll.readOut_empty hlist batchSize n
    rw [hrun] at hpages
    obtain rfl : pages = [] := hpages
    exact List.not_mem_nil (hall.mem hkey hkept)
  · rintro ⟨u, hrun, hnone⟩
    have hcleared : r.clear w = .ok () v := clear_listed (List.map_nil ▸ hlist)
    rw [hcleared] at hrun
    obtain rfl : v = u := (EStateM.Result.ok.inj hrun).2
    rw [hnone key hkey] at hstays
    exact absurd hstays nofun
  · rintro ⟨pass, x, status, u, hbegin, hsweep, hnone⟩
    obtain ⟨pass', status', hbegin', hsweep'⟩ :=
      sweep_empty hlist algorithm pageSize order
    rw [hbegin'] at hbegin
    obtain ⟨rfl, rfl⟩ := EStateM.Result.ok.inj hbegin
    rw [hsweep'] at hsweep
    obtain ⟨-, rfl⟩ := EStateM.Result.ok.inj hsweep
    rw [hnone key hkey] at hstays
    exact absurd hstays nofun

/-- Exactly below a canonical root the blobs that were written under digest keys can be reached as a
whole: a listing has each of them once and with its size and no other digest key, a scroll gives
them all, clearing deletes them all and a collection without marks reclaims them all. Below any
other root the listing is silently empty. -/
theorem listing_complete_iff (r : RemoteStore) (text : String) (hr : r.space = .ofText text)
    (algorithm : DigestAlgorithm) (batchSize pageSize : Nat) (order : SweepOrder) (w : World)
    (hw : (PlainStore.remote r).Quiet w) (htemp : ∃ files, w.temps? r.tempDir = some files)
    (hproper : (PlainStore.remote r).Proper w)
    (hfree : ∀ key, algorithm.isDigest key = true → (PlainStore.remote r).hold? w key = none)
    (requests : List WriteRequest) (hne : requests ≠ [])
    (hrequests : ∀ q ∈ requests, q.Brings (algorithm.isDigest · = true) w) :
    ∃ v, requests.mapM (Store.remote r).write w = .ok ((brought w requests).map Prod.fst) v ∧
      (r.ListsAll algorithm (firstBrought w requests) v ↔ r.space.Canonical) ∧
      (r.ExportsAll algorithm (firstBrought w requests) batchSize v ↔ r.space.Canonical) ∧
      (r.ClearsAll algorithm v ↔ r.space.Canonical) ∧
      (r.ReclaimsAll algorithm pageSize order v ↔ r.space.Canonical) ∧
      (¬ r.space.Canonical → (r.list v).1 = []) := by
  have hclosed : r.space.Closed := hr ▸ Namespace.closed_ofText text
  obtain ⟨keys, v, hrun, rfl, hv, hhold, hkeeps⟩ :=
    PlainStore.writes_spec hclosed hrequests hw htemp
  have hkept : ∀ key, algorithm.isDigest key = true →
      (PlainStore.remote r).hold? v key = firstBrought w requests key := by
    intro key hkey
    rw [hhold key hkey, hfree key hkey, Option.none_or, firstBrought]
  refine ⟨v, hrun, ?_⟩
  by_cases hcanonical : r.space.Canonical
  · obtain ⟨hlists, hexports, hclears, hreclaims⟩ :=
      reachesAll_of_canonical hcanonical hv hkept batchSize pageSize order
    exact ⟨iff_of_true hlists hcanonical, iff_of_true hexports hcanonical,
      iff_of_true hclears hcanonical, iff_of_true hreclaims hcanonical, absurd hcanonical⟩
  · -- the key of the first request is held, and nothing reaches it
    obtain ⟨q, rest, rfl⟩ := List.exists_cons_of_ne_nil hne
    obtain ⟨key, content, hplan, hkey⟩ := (hrequests q List.mem_cons_self).planned
    have hfirst : firstBrought w (q :: rest) key = some content := by
      rw [firstBrought, WriteRequest.brought_cons hplan, List.lookup_cons_self]
    obtain ⟨hempty, hlists, hexports, hclears, hreclaims⟩ :=
      reachesNone_of_not_canonical hclosed hcanonical hv (hkeeps hproper) hkey
        ((hkept key hkey).trans hfirst) hfirst batchSize pageSize order
    exact ⟨iff_of_false hlists hcanonical, iff_of_false hexports hcanonical,
      iff_of_false hclears hcanonical, iff_of_false hreclaims hcanonical, fun _ => hempty⟩

/-- What is written below an ordinary prefix is listed. -/
theorem listing_complete_below_prefix :
    let r : RemoteStore := {
      name := "vault"
      location := ⟨"account", "box"⟩
      container := "box"
      space := .ofText "cas"
      tempDir := .scratch "temps" }
    let w : World := { scratch := ExtTreeMap.insert ∅ "temps" ∅ }
    let request : WriteRequest := {
      source := .stream [.ok [102, 111, 111]]
      key? := some "acbd18db4cc2f85cedef654fccc4a4d8" }
    ∃ v, [request].mapM (Store.remote r).write w =
        .ok ["acbd18db4cc2f85cedef654fccc4a4d8"] v ∧
      .ok ⟨"acbd18db4cc2f85cedef654fccc4a4d8", 3⟩ ∈ (r.list v).1 := by
  intro r w request
  have hw : (PlainStore.remote r).Quiet w := World.quiet_of_containers rfl _
  obtain ⟨v, hrun, hlists, -⟩ := listing_complete_iff r "cas" rfl .md5 1 1 .listed w hw
    ⟨∅, ExtTreeMap.getElem?_insert_self⟩ (PlainStore.proper_of_containers rfl)
    (fun _ _ => PlainStore.hold?_of_containers rfl) [request] (List.cons_ne_nil _ _)
    (fun q hq => by
      obtain rfl := List.mem_singleton.1 hq
      exact ⟨nofun, _, _, rfl, by decide⟩)
  obtain ⟨blobs, hblobs, hall⟩ := hlists.2 (by decide)
  have hfirst : firstBrought w [request] "acbd18db4cc2f85cedef654fccc4a4d8" =
      some [102, 111, 111] := by decide
  refine ⟨v, hrun, ?_⟩
  rw [hblobs]
  exact List.mem_map_of_mem (hall.mem (by decide) hfirst)

/-- Below a prefix that begins with a delimiter a blob is held and can be read, but no listing has
it, no scroll gives it, and neither clearing nor a collection deletes it. -/
theorem listing_empty_below_leading_delimiter :
    let r : RemoteStore := {
      name := "vault"
      location := ⟨"account", "box"⟩
      container := "box"
      space := .ofText "/cas"
      tempDir := .scratch "temps" }
    let w : World := { scratch := ExtTreeMap.insert ∅ "temps" ∅ }
    let request : WriteRequest := {
      source := .stream [.ok [102, 111, 111]]
      key? := some "acbd18db4cc2f85cedef654fccc4a4d8" }
    ∃ v, [request].mapM (Store.remote r).write w =
        .ok ["acbd18db4cc2f85cedef654fccc4a4d8"] v ∧
      (PlainStore.remote r).hold? v "acbd18db4cc2f85cedef654fccc4a4d8" = some [102, 111, 111] ∧
      (r.list v).1 = [] ∧ ¬ r.ListsAll .md5 (firstBrought w [request]) v ∧
      ¬ r.ExportsAll .md5 (firstBrought w [request]) 1 v ∧ ¬ r.ClearsAll .md5 v ∧
      ¬ r.ReclaimsAll .md5 1 .listed v := by
  intro r w request
  have hw : (PlainStore.remote r).Quiet w := World.quiet_of_containers rfl _
  have hkey : DigestAlgorithm.md5.isDigest "acbd18db4cc2f85cedef654fccc4a4d8" = true := by decide
  have hrequests : ∀ q ∈ [request], q.Brings (DigestAlgorithm.md5.isDigest · = true) w := by
    intro q hq
    obtain rfl := List.mem_singleton.1 hq
    exact ⟨nofun, _, _, rfl, hkey⟩
  obtain ⟨keys, v, hrun, rfl, hv, hhold, hproper⟩ := PlainStore.writes_spec (r := r)
    (Namespace.closed_ofText "/cas") hrequests hw ⟨∅, ExtTreeMap.getElem?_insert_self⟩
  have hheld : (PlainStore.remote r).hold? v "acbd18db4cc2f85cedef654fccc4a4d8" =
      some [102, 111, 111] := by
    rw [hhold _ hkey, PlainStore.hold?_of_containers rfl, Option.none_or]
    decide
  exact ⟨v, hrun, hheld, reachesNone_of_not_canonical (Namespace.closed_ofText "/cas") (by decide)
    hv (hproper (PlainStore.proper_of_containers rfl)) hkey hheld (by decide) 1 1 .listed⟩

end RemoteStore

end BlobVault
