import BlobVault.Proofs.Lockstep
import BlobVault.Proofs.PlainStore
import BlobVault.Store.Copy

/-!
# Two runs of a store

The operations of a store whose caches are in view run alike in related worlds.

1. `Lockstep.readInto`, `Lockstep.localFile`, `Lockstep.openStream`, `Lockstep.contains`: reading.
2. `Lockstep.storeFile`, `Lockstep.write`, `Lockstep.delete`, `Lockstep.clear`: changing.
3. `Lockstep.copyFrom`, `Lockstep.copy`: copying, given how the source deletes and the target
   stores, or whatever they do.
-/

namespace BlobVault

open FileCache (entryName)

/-- The directories of all caches of the store are in view. -/
def Store.InView (view : String → Prop) : Store → Prop
  | .memory _ | .remote _ => True
  | .caching _ cache inner => view cache.dir ∧ inner.InView view

/-- The store is the given one, or has caches in front of it. -/
def Store.Wraps : Store → PlainStore → Prop
  | .memory m, p => p = .memory m
  | .remote r, p => p = .remote r
  | .caching _ _ inner, p => inner.Wraps p

/-- A stream is no file out of view. -/
def BlobStream.InView (view : String → Prop) : BlobStream → Prop
  | .delivery _ => True
  | .file path => path.InView view

/-- The keys that the request can settle on are of a kind, whatever its content. -/
def WriteRequest.Settles (r : WriteRequest) (P : String → Prop) : Prop :=
  (∀ key, r.key = some key → P key) ∧
    ∀ pieces key, (r.observed pieces).key = some key → P key

theorem WriteRequest.settles_true (r : WriteRequest) : r.Settles fun _ => True :=
  ⟨fun _ _ => trivial, fun _ _ _ => trivial⟩

/-- A given key is settled on. -/
theorem WriteRequest.settles_given {source : ContentSource} {observer? : Option Observer}
    {key : String} {P : String → Prop} (h : P key) :
    ({ source, observer?, key? := some key } : WriteRequest).Settles P := by
  constructor
  · rintro k hk
    exact Option.some.inj hk ▸ h
  · rintro pieces k hk
    rw [WriteRequest.observed_eq] at hk
    exact Option.some.inj hk ▸ h

/-- A cache gives away no other files than its entries. -/
theorem FileCache.fetch_place (c : FileCache) (key : String) (download : LocalPath → Action Bool)
    (w : World) :
    Ensures (c.fetch key download) w
      (fun path? _ => ∀ path, path? = some path → path = .entry c.dir (entryName key))
      fun _ _ => True := by
  have htouch : Ensures (c.touch key) w
      (fun path? _ => ∀ path, path? = some path → path = .entry c.dir (entryName key))
      fun _ _ => True := by
    unfold FileCache.touch
    dsimp only
    refine Ensures.bind (Ensures.get (S := fun _ _ => True) trivial) fun v _ _ => ?_
    cases v.caches[c.dir]? with
    | none => exact Ensures.pure nofun
    | some d =>
      dsimp only
      split
      · exact Ensures.throw trivial
      split
      · exact Ensures.throw trivial
      cases d.entries[entryName key]? with
      | none => exact Ensures.pure nofun
      | some node =>
        cases node with
        | directory => exact Ensures.throw trivial
        | file content _ writable =>
          cases writable with
          | false => exact Ensures.throw trivial
          | true =>
            refine Ensures.of_ok rfl fun path hpath => ?_
            exact (Option.some.inj hpath).symm
  have hinstall : ∀ path v, Ensures (c.install key path) v
      (fun path _ => path = .entry c.dir (entryName key)) fun _ _ => True := by
    intro path v
    refine Ensures.bind (Q := fun _ _ => True) (Ensures.any _ _) fun _ _ _ => ?_
    exact Ensures.bind (Q := fun _ _ => True) (Ensures.any _ _) fun _ _ _ => Ensures.pure rfl
  rw [c.fetch_eq]
  refine Ensures.bind htouch fun path? v hpath => ?_
  cases path? with
  | some path => exact Ensures.pure hpath
  | none =>
    have huse : ∀ path v, Ensures (do
          if ← download path then return some (← c.install key path) else return none :
            Action (Option LocalPath)) v
        (fun path? _ => ∀ path, path? = some path → path = .entry c.dir (entryName key))
        fun _ _ => True := by
      intro path v
      refine Ensures.bind (Q := fun _ _ => True) (Ensures.any _ _) fun found _ _ => ?_
      cases found with
      | false => exact Ensures.pure nofun
      | true =>
        refine Ensures.bind (hinstall path _) fun path _ hpath => Ensures.pure ?_
        exact fun other hother => (Option.some.inj hother).symm.trans hpath
    cases htemps : v.temps? c.tempDir with
    | none => exact Ensures.of_error (withTemp_none htemps) trivial
    | some files =>
      exact withTemp_spec htemps fun serial _ =>
        (huse (.temp c.tempDir serial) _).mono (fun _ _ h => h) fun _ _ h => h

namespace Lockstep

variable {α : Type} {view : String → Prop} {A R : World → World → Prop}

section

variable (hA : Related view A) (hR : Admits view R)

include hA hR

/-! ## Reading -/

theorem memory_find? (m : MemoryStore) (key : String) : Lockstep A R (m.find? key) :=
  get_bind (k := fun w => (m.blobs w)[key]?)
    (fun w v h => by unfold MemoryStore.blobs; rw [hA.memory h]) fun content? => pure hR content?

theorem fetchFrom (r : RemoteStore) (p : ObjectPath) (range? : Option ByteRange) :
    Lockstep A R (r.find? (Container.fetch p range?)) :=
  find? hR (call_of_looks hA hR fun c =>
    (c.fetch_spec _ range?).mono (fun _ _ h => h.1) fun _ _ h => h.1)

theorem save {dest : LocalPath} (hdest : dest.InView view) (d : Delivery) :
    Lockstep A R (RemoteStore.save d dest) := by
  refine (putFile hA hR hdest _).bind hR fun _ => ?_
  cases d.failure? with
  | none => exact pure hR _
  | some e => exact throw hR _

/-- Downloads what a container has at a path. -/
theorem download {dest : LocalPath} (hdest : dest.InView view) (r : RemoteStore) (p : ObjectPath)
    (range? : Option ByteRange) :
    Lockstep A R (do
      match ← r.find? (Container.fetch p range?) with
      | none => return false
      | some d =>
        RemoteStore.save d dest
        return true) := by
  refine (fetchFrom hA hR r p range?).bind hR fun delivery? => ?_
  cases delivery? with
  | none => exact pure hR _
  | some d => exact (save hA hR hdest d).bind hR fun _ => pure hR _

theorem readInto (store : Store) (hstore : store.InView view) (key : String) {dest : LocalPath}
    (hdest : dest.InView view) : Lockstep A R (store.readInto key dest) := by
  induction store generalizing dest with
  | memory m =>
    have hlookup : Lockstep A R (m.lookup key) := by
      unfold MemoryStore.lookup
      dsimp only
      refine (memory_find? hA hR m _).bind hR fun content? => ?_
      split
      · exact pure hR _
      · exact pure hR _
      · split
        · exact pure hR _
        · exact pure hR _
    refine hlookup.bind hR fun content? => ?_
    cases content? with
    | none => exact pure hR _
    | some content => exact (putFile hA hR hdest content).bind hR fun _ => pure hR _
  | remote r =>
    show Lockstep A R (r.readInto key dest)
    unfold RemoteStore.readInto
    dsimp only
    split
    · refine (size? hA hR r _).bind hR fun size? => ?_
      cases size? with
      | none => exact pure hR _
      | some size =>
        dsimp only
        split
        · exact pure hR _
        · exact download hA hR hdest r _ _
    · exact download hA hR hdest r _ _
  | caching name cache inner ih =>
    show Lockstep A R (if ByteRange.isAnnotated key then _ else _)
    split
    · exact ih hstore.2 hdest
    · refine bind_of hR (fetch hA hR hstore.1 key fun path hpath => ih hstore.2 hpath)
        (cache.fetch_place key _) fun path? hpath => ?_
      cases path? with
      | none => exact pure hR _
      | some path =>
        obtain rfl := hpath path rfl
        have hplace : LocalPath.InView view (.entry cache.dir (entryName key)) := hstore.1
        exact (copyFile hA hR hplace hdest).bind hR fun _ => pure hR _

/-- A store gives away only files in view. -/
theorem localFile (store : Store) (hstore : store.InView view) (key : String) :
    Lockstep A R (store.localFile key) ∧
      ∀ w, Ensures (store.localFile key) w
        (fun lookup _ => ∀ path, lookup = .found path → path.InView view) fun _ _ => True := by
  cases store with
  | memory m => exact ⟨pure hR _, fun w => Ensures.pure nofun⟩
  | remote r => exact ⟨pure hR _, fun w => Ensures.pure nofun⟩
  | caching name cache inner =>
    rw [Store.localFile_caching]
    split
    · exact ⟨pure hR _, fun w => Ensures.pure nofun⟩
    · refine ⟨?_, fun w => ?_⟩
      · refine (fetch hA hR hstore.1 key fun path hpath =>
          readInto hA hR inner hstore.2 key hpath).bind hR fun path? => ?_
        cases path? with
        | some path => exact pure hR _
        | none => exact pure hR _
      · refine Ensures.bind (cache.fetch_place key _ w) fun path? v hplace => ?_
        cases path? with
        | none => exact Ensures.pure nofun
        | some path =>
          refine Ensures.pure fun other hother => ?_
          obtain rfl := Lookup.found.inj hother
          obtain rfl := hplace path rfl
          exact hstore.1

theorem withFile (store : Store) (hstore : store.InView view) (key : String) {t : TempDir}
    (ht : t.InView view) {use : LocalPath → Action α}
    (huse : ∀ path, path.InView view → Lockstep A R (use path)) :
    Lockstep A R (store.withFile key t use) := by
  obtain ⟨hlocal, hplace⟩ := localFile hA hR store hstore key
  refine bind_of hR hlocal hplace fun lookup hlookup => ?_
  cases lookup with
  | found path => exact (huse path (hlookup path rfl)).bind hR fun _ => pure hR _
  | missing => exact pure hR _
  | unknown =>
    refine withTemp hA hR ht fun path hpath => ?_
    refine (readInto hA hR store hstore key hpath).bind hR fun found => ?_
    cases found with
    | true => exact (huse path hpath).bind hR fun _ => pure hR _
    | false => exact pure hR _

theorem contains (store : Store) (hstore : store.InView view) (key : String) :
    Lockstep A R (store.contains key) := by
  induction store with
  | memory m => exact (memory_find? hA hR m key).bind hR fun _ => pure hR _
  | remote r => exact (size? hA hR r key).bind hR fun _ => pure hR _
  | caching name cache inner ih =>
    show Lockstep A R (if ByteRange.isAnnotated key then _ else _)
    split
    · exact ih hstore.2
    · refine (touch hA hR hstore.1 key).bind hR fun path? => ?_
      cases path? with
      | some path => exact pure hR _
      | none => exact ih hstore.2

/-- A store opens only files in view. -/
theorem openStream (store : Store) (hstore : store.InView view) (key : String) :
    Lockstep A R (store.openStream key) ∧
      ∀ w, Ensures (store.openStream key) w
        (fun stream? _ => ∀ stream, stream? = some stream → stream.InView view)
        fun _ _ => True := by
  have hdelivered : ∀ delivery? : Option Delivery, ∀ stream,
      delivery?.map BlobStream.delivery = some stream → stream.InView view := by
    intro delivery? stream hstream
    obtain ⟨d, -, rfl⟩ := Option.map_eq_some_iff.1 hstream
    trivial
  induction store with
  | memory m =>
    refine ⟨(memory_find? hA hR m key).bind hR fun _ => pure hR _, fun w => ?_⟩
    refine Ensures.map (Ensures.any _ _) fun content? _ _ => ?_
    rw [show (fun content => BlobStream.delivery ⟨content, none⟩) =
      BlobStream.delivery ∘ fun content => ⟨content, none⟩ from rfl, ← Option.map_map]
    exact hdelivered _
  | remote r =>
    refine ⟨(fetchFrom hA hR r _ none).bind hR fun _ => pure hR _, fun w => ?_⟩
    exact Ensures.map (Ensures.any _ _) fun delivery? _ _ => hdelivered delivery?
  | caching name cache inner ih =>
    have hrun : Store.openStream (.caching name cache inner) key =
        if ByteRange.isAnnotated key then inner.openStream key
        else do return (← cache.fetch key (inner.readInto key)).map .file := rfl
    rw [hrun]
    split
    · exact ih hstore.2
    · refine ⟨?_, fun w => ?_⟩
      · exact (fetch hA hR hstore.1 key fun path hpath =>
          readInto hA hR inner hstore.2 key hpath).bind hR fun _ => pure hR _
      · refine Ensures.map (cache.fetch_place key _ w) fun path? _ hplace stream hstream => ?_
        obtain ⟨path, hpath, rfl⟩ := Option.map_eq_some_iff.1 hstream
        obtain rfl := hplace path hpath
        exact hstore.1

theorem drain {stream : BlobStream} (hstream : stream.InView view) :
    Lockstep A R stream.drain := by
  cases stream with
  | delivery d => exact pure hR _
  | file path =>
    refine (outcome (fileContent hA hR hstream)).bind hR fun content => ?_
    cases content with
    | ok content => exact pure hR _
    | error e => exact pure hR _

/-! ## Changing -/

omit hA in
/-- Going on with the settled key runs alike, if it does so for the keys that can be settled on. -/
theorem settle {r : WriteRequest} {P : String → Prop} (hP : ∀ key, r.key = some key → P key)
    {use : String → Action α} (huse : ∀ key, P key → Lockstep A R (use key)) :
    Lockstep A R (r.settle >>= use) := by
  unfold WriteRequest.settle
  cases hkey : r.key with
  | some key => exact (pure hR key).bind_of hR (fun _ => Ensures.pure (hP key hkey)) huse
  | none => exact (throw hR _).bind_of hR (fun _ => Ensures.throw trivial) huse

/-- Piece by piece, a stream runs alike into a file in view. -/
theorem append {path : LocalPath} (hpath : path.InView view) {P : String → Prop}
    {use : String × Nat → Action α} (huse : ∀ key length, P key → Lockstep A R (use (key, length)))
    (chunks : ContentStream) (r : WriteRequest) (length : Nat)
    (hP : ∀ pieces key, (r.observed pieces).key = some key → P key) :
    Lockstep A R (WriteRequest.append path r length chunks >>= use) := by
  induction chunks generalizing r length with
  | nil =>
    unfold WriteRequest.append
    simp only [bind_assoc, pure_bind]
    exact settle hR (hP []) fun key hkey => huse key length hkey
  | cons chunk chunks ih =>
    cases chunk with
    | error e => exact throw hR _
    | ok chunk =>
      unfold WriteRequest.append
      simp only [bind_assoc]
      refine (fileContent hA hR hpath).bind hR fun held => (putFile hA hR hpath _).bind hR fun _ => ?_
      exact ih (r.observe chunk) _ fun pieces => hP (chunk :: pieces)

/-- Running something with local content runs alike, if it does so for the keys that the request can
settle on. -/
theorem withLocal {r : WriteRequest} {P : String → Prop} (hP : r.Settles P)
    (hr : ∀ path, r.source = .file path → path.InView view) {t : TempDir} (ht : t.InView view)
    {use : LocalContent → Action α}
    (huse : ∀ content, content.path.InView view → P content.key → Lockstep A R (use content)) :
    Lockstep A R (r.withLocal t use) := by
  unfold WriteRequest.withLocal
  cases hsource : r.source with
  | stream chunks =>
    refine withTemp hA hR ht fun path hpath => ?_
    unfold WriteRequest.transfer
    simp only [bind_assoc]
    refine (putFile hA hR hpath _).bind hR fun _ => ?_
    exact append hA hR hpath (fun key length hkey => huse ⟨key, path, length, true⟩ hpath hkey)
      chunks r 0 hP.2
  | file path =>
    dsimp only
    unfold WriteRequest.inspect WriteRequest.observeFile
    have hpath := hr path hsource
    split
    · simp only [bind_assoc, pure_bind]
      refine (fileContent hA hR hpath).bind hR fun content => ?_
      exact settle hR (hP.2 (readPieces content)) fun key hkey => huse _ hpath hkey
    · simp only [bind_assoc, pure_bind]
      refine (fileSize hA hR hpath).bind hR fun length => ?_
      exact settle hR hP.1 fun key hkey => huse _ hpath hkey

end

section

variable (hA : Related view A)

include hA

/-- Talking to a container runs alike, whatever becomes of the objects. -/
theorem call_of_follows {r : RemoteStore} {q : Call α}
    (hq : ∀ c : Container, Ensures q c (fun _ d => c.Follows d) fun _ d => c.Follows d) :
    Lockstep A (fun _ _ => True) (r.call q) :=
  call hA fun _ => (hq _).mono (fun _ _ h => ⟨h, trivial⟩) fun _ _ h => ⟨h, trivial⟩

/-- Storing a file runs alike, whatever it makes of the worlds. -/
theorem storeFile (p : PlainStore) (key : String) {file : LocalPath} (hfile : file.InView view)
    (length : Nat) : Lockstep A (fun _ _ => True) (p.storeFile key file length) := by
  have hR := admits_true view
  have hreach : ∀ kind path c, Ensures (Container.reach kind path) c (fun _ d => c.Follows d)
      fun _ d => c.Follows d := fun kind path c =>
    (c.reach_spec kind path).mono (fun _ _ h => h.1) fun _ _ h => h.1.1
  cases p with
  | memory m =>
    refine (memory_find? hA hR m key).bind hR fun content? => ?_
    split
    · refine (fileContent hA hR hfile).bind hR fun content => ?_
      refine update (fun w v h => ?_) fun _ => trivial
      unfold MemoryStore.blobs
      rw [hA.memory h]
      exact hA.setMemory h _ _
    · exact pure hR _
  | remote r =>
    show Lockstep A _ (r.storeFile key file length)
    unfold RemoteStore.storeFile
    refine (size? hA hR r key).bind hR fun size? => ?_
    split
    · exact pure hR _
    · dsimp only
      split
      · refine (fileContent hA hR hfile).bind hR fun content =>
          ensure hR (call_of_follows hA fun c => ?_)
        exact (c.create_spec _ content).mono (fun _ _ h => h.1) fun _ _ h => h.1.follows
      · unfold RemoteStore.uploadParts
        refine (require hR (call_of_follows hA (hreach _ _))).bind hR fun _ => ?_
        refine (outcome (fileContent hA hR hfile)).bind hR fun content => ?_
        cases content with
        | ok content =>
          refine require hR (call_of_follows hA fun c => ?_)
          exact (c.finishUpload_spec _ content).mono (fun _ _ h => h.1) fun _ _ h => h.1.follows
        | error e =>
          dsimp only
          split
          · exact (call_of_follows hA (hreach _ _)).bind hR fun _ => throw hR _
          · exact throw hR _

/-- Writing a blob runs alike, given how the store at the bottom stores files. -/
theorem write_of (hR : Admits view R) (store : Store) (hstore : store.InView view)
    (htemp : ∀ p : PlainStore, store.Wraps p → p.tempDir.InView view) {P : String → Prop}
    (hfile : ∀ p : PlainStore, store.Wraps p → ∀ key, P key → ∀ file, file.InView view → ∀ length,
      Lockstep A R (p.storeFile key file length))
    {request : WriteRequest} (hP : request.Settles P)
    (hrequest : ∀ path, request.source = .file path → path.InView view) :
    Lockstep A R (store.write request) := by
  have hplain : ∀ p : PlainStore, store.Wraps p → ∀ request : WriteRequest, request.Settles P →
      (∀ path, request.source = .file path → path.InView view) →
        Lockstep A R (p.toStore.write request) := by
    intro p hp request hP hrequest
    rw [p.write_eq]
    refine withLocal hA hR hP hrequest (htemp p hp) fun content hcontent hkey => ?_
    exact (hfile p hp content.key hkey content.path hcontent content.length).map _
  induction store generalizing request with
  | memory m => exact hplain (.memory m) rfl request hP hrequest
  | remote r => exact hplain (.remote r) rfl request hP hrequest
  | caching name cache inner ih =>
    rw [Store.write_caching]
    refine withLocal hA hR hP hrequest (show cache.tempDir.InView view from hstore.1)
      fun content hcontent hkey => ?_
    have hinner : Lockstep A R
        (inner.write { source := .file content.path, key? := some content.key }) :=
      ih hstore.2 htemp hfile (WriteRequest.settles_given hkey)
        (fun path hpath => by rwa [← ContentSource.file.inj hpath]) hplain
    refine hinner.bind hR fun key => Lockstep.bind hR (attempt ?_) fun _ => pure hR _
    split
    · exact (install hA hR hstore.1 key hcontent).bind hR fun _ => pure hR _
    · exact (insertFile hA hR hstore.1 key hcontent).bind hR fun _ => pure hR _

/-- Writing a blob runs alike, whatever it makes of the worlds. -/
theorem write (store : Store) (hstore : store.InView view)
    (htemp : ∀ p : PlainStore, store.Wraps p → p.tempDir.InView view) {request : WriteRequest}
    (hrequest : ∀ path, request.source = .file path → path.InView view) :
    Lockstep A (fun _ _ => True) (store.write request) :=
  write_of hA (admits_true view) store hstore htemp
    (fun p _ key _ _ hfile length => storeFile hA p key hfile length) request.settles_true hrequest

theorem erase (r : RemoteStore) (key : String) {w v : World} (h : A w v) :
    A (r.erase key w) (r.erase key v) := by
  have hspec := (w.container r.container).delete_spec (r.pathFor key)
  unfold RemoteStore.erase
  rw [hA.container h]
  cases hrun : Container.delete (r.pathFor key) (w.container r.container) with
  | ok _ c => exact hA.setContainer h _ c (hspec.ok_of_eq hrun).1
  | error _ c => exact hA.setContainer h _ c (hspec.error_of_eq hrun).1.follows

/-- Deleting a blob runs alike, if what it makes of each store without a cache is known. -/
theorem delete (hR : Admits view R) (store : Store) (hstore : store.InView view) (key : String)
    (hplain : ∀ p : PlainStore, store.Wraps p → ∀ w,
      Ensures (p.toStore.delete key) w (fun _ v => R w v) fun _ v => R w v) :
    Lockstep A R (store.delete key) := by
  induction store with
  | memory m =>
    refine update (fun w v h => ?_) fun w => (hplain (.memory m) rfl w).ok_of_eq rfl
    unfold MemoryStore.erase MemoryStore.blobs
    rw [hA.memory h]
    exact hA.setMemory h _ _
  | remote r =>
    exact update (fun w v h => erase hA r key h) fun w => (hplain (.remote r) rfl w).ok_of_eq rfl
  | caching name cache inner ih =>
    exact (remove hA hR hstore.1 key).bind hR fun _ => ih hstore.2 hplain

/-- Clearing a store runs alike, if what it makes of each store without a cache is known. -/
theorem clear_of (hR : Admits view R) (store : Store) (hstore : store.InView view)
    (hplain : ∀ p : PlainStore, store.Wraps p → ∀ w,
      Ensures p.toStore.clear w (fun _ v => R w v) fun _ v => R w v) :
    Lockstep A R store.clear := by
  induction store with
  | memory m =>
    exact update (fun w v h => hA.setMemory h m.memory ∅) fun w =>
      (hplain (.memory m) rfl w).ok_of_eq rfl
  | remote r =>
    intro w v h
    have hitems : (r.list v).1 = (r.list w).1 := by
      unfold RemoteStore.list
      rw [hA.container h]
    have hlisted : A (r.list w).2 (r.list v).2 := by
      unfold RemoteStore.list
      rw [hA.container h]
      exact hA.setContainer h _ _ (Container.list_spec _ _).1.1
    have hfold : ∀ (blobs : List ListedBlob) (w v : World), A w v →
        A (blobs.foldl (fun w blob => r.erase blob.key w) w)
          (blobs.foldl (fun w blob => r.erase blob.key w) v) := by
      intro blobs
      induction blobs with
      | nil => exact fun _ _ h => h
      | cons blob blobs ih => exact fun w v h => ih _ _ (erase hA r blob.key h)
    have hdone :=
      hfold ((Pager.ofListing (r.list w).1 defaultPageSize).readAll.1.flatten) _ _ hlisted
    have hspec : Ensures r.clear w (fun _ v => R w v) fun _ v => R w v := hplain (.remote r) rfl w
    show (∃ a x y, r.clear w = .ok a x ∧ r.clear v = .ok a y ∧ _) ∨
      ∃ e x y, r.clear w = .error e x ∧ r.clear v = .error e y ∧ _
    unfold Ensures at hspec
    unfold RemoteStore.clear at hspec ⊢
    dsimp only at hspec ⊢
    rw [hitems]
    cases hfailure : (Pager.ofListing (r.list w).1 defaultPageSize).readAll.2 with
    | none =>
      rw [hfailure] at hspec
      exact .inl ⟨(), _, _, rfl, rfl, hdone, hspec⟩
    | some e =>
      rw [hfailure] at hspec
      exact .inr ⟨e, _, _, rfl, rfl, hdone, hspec⟩
  | caching name cache inner ih =>
    exact (clearCache hA hR hstore.1).bind hR fun _ => ih hstore.2 hplain

/-- Clearing a store runs alike, whatever it makes of the worlds. -/
theorem clear (store : Store) (hstore : store.InView view) :
    Lockstep A (fun _ _ => True) store.clear :=
  clear_of hA (admits_true view) store hstore fun _ _ _ => Ensures.any _ _

/-! ## Copying

A copy first stores and then, if it is a move, deletes: what it makes of the worlds is what storing
makes of them, followed by what deleting makes of them. -/

section

variable {S : World → World → Prop} (hR : Admits view R) (hRS : Leads R S)

include hR hRS

omit hA in
theorem finish {source : Store} {sourceKey : String}
    (hdelete : Lockstep A S (source.delete sourceKey)) (key : String) (move : Bool) :
    Lockstep A S (if move then (do
        let _ ← source.delete sourceKey
        return some key)
      else return some key : Action (Option String)) := by
  cases move with
  | true => exact hdelete.map _
  | false => exact (pure hR _).mono hRS.here

theorem copyInside {r : RemoteStore} {source : Store} (o : RemoteStore)
    {sourceKey : String} (hdelete : Lockstep A S (source.delete sourceKey)) (key : String)
    (move : Bool)
    (hcopy : Lockstep A R (r.call (Container.copyToFree (o.pathFor sourceKey) (r.pathFor key)))) :
    Lockstep A S (r.copyInside key source o sourceKey move) := by
  have hfinish := finish hR hRS hdelete key move
  have hend : ∀ key? : Option String, Lockstep A S (Pure.pure key? : Action (Option String)) :=
    fun key? => (pure hR key?).mono hRS.here
  unfold RemoteStore.copyInside
  refine (size? hA hR o sourceKey).bind_into hRS fun size? => ?_
  split
  · exact hend _
  dsimp only
  split
  · exact hend _
  refine (Lockstep.size? hA hR r key).bind_into hRS fun size? => ?_
  split
  · refine hcopy.bind_into hRS fun answer => ?_
    cases answer with
    | ok _ => exact hfinish
    | error e =>
      cases e with
      | alreadyExists _ => exact hfinish
      | notFound _ => exact hend _
      | generic => exact (throw hR _).bind_into hRS fun _ => hfinish
      | denied _ => exact (throw hR _).bind_into hRS fun _ => hfinish
  · exact hfinish

/-- Copying through a local file. -/
theorem copyThrough {source : Store} (hsource : source.InView view)
    {sourceKey : String} (hdelete : Lockstep A S (source.delete sourceKey)) (key : String)
    (move : Bool) {t : TempDir} (ht : t.InView view) {upload : LocalPath → Action Unit}
    (hupload : ∀ file, file.InView view → Lockstep A R (upload file)) :
    Lockstep A S (do
      match ← source.withFile sourceKey t upload with
      | none => return none
      | some _ =>
        if move then source.delete sourceKey
        return some key) := by
  refine (withFile hA hR source hsource sourceKey ht hupload).bind_into hRS fun done? => ?_
  cases done? with
  | none => exact (pure hR _).mono hRS.here
  | some _ => exact finish hR hRS hdelete key move

/-- Copying runs alike, given how the source deletes, and how the target stores files and copies
inside its container. -/
theorem copyFrom (p : PlainStore) (htemp : p.tempDir.InView view)
    {source : Store} (hsource : source.InView view) {sourceKey : String}
    (hdelete : Lockstep A S (source.delete sourceKey)) (key : String) (move : Bool)
    (hstore : ∀ file, file.InView view → ∀ length, Lockstep A R (p.storeFile key file length))
    (hcopy : ∀ o r : RemoteStore, p = .remote r →
      Lockstep A R (r.call (Container.copyToFree (o.pathFor sourceKey) (r.pathFor key)))) :
    Lockstep A S (p.toStore.copyFrom key source sourceKey move) := by
  cases p with
  | memory m =>
    exact copyThrough hA hR hRS hsource hdelete key move htemp fun file hfile =>
      hstore file hfile 0
  | remote r =>
    have hupload : Lockstep A S (r.copyThrough key source sourceKey move) :=
      copyThrough hA hR hRS hsource hdelete key move htemp fun file hfile =>
        (fileSize hA hR hfile).bind hR fun length => hstore file hfile length
    show Lockstep _ _ (r.copyFrom key source sourceKey move)
    unfold RemoteStore.copyFrom
    cases source.remote? with
    | none => exact hupload
    | some o =>
      dsimp only
      split
      · exact copyInside hA hR hRS o hdelete key move (hcopy o r rfl)
      · exact hupload

/-- Copying runs alike, given that, for the store at the bottom of the target. -/
theorem copy_of (target : Store)
    (htemp : ∀ p : PlainStore, target.Wraps p → p.tempDir.InView view) {source : Store}
    (hsource : source.InView view) {sourceKey : String}
    (hdelete : Lockstep A S (source.delete sourceKey)) (key : String) (move : Bool)
    (hstore : ∀ p : PlainStore, target.Wraps p → ∀ file, file.InView view → ∀ length,
      Lockstep A R (p.storeFile key file length))
    (hcopy : ∀ o r : RemoteStore, target.Wraps (.remote r) →
      Lockstep A R (r.call (Container.copyToFree (o.pathFor sourceKey) (r.pathFor key)))) :
    Lockstep A S (target.copyFrom key source sourceKey move) := by
  have hplain : ∀ p : PlainStore, target.Wraps p →
      Lockstep A S (p.toStore.copyFrom key source sourceKey move) := fun p hp =>
    copyFrom hA hR hRS p (htemp p hp) hsource hdelete key move (hstore p hp)
      fun o r hr => hcopy o r (hr ▸ hp)
  induction target with
  | memory m => exact hplain (.memory m) rfl
  | remote r => exact hplain (.remote r) rfl
  | caching name cache inner ih => exact ih htemp hstore hcopy hplain

end

/-- Copying runs alike, whatever it makes of the worlds. -/
theorem copy (target : Store) (htemp : ∀ p : PlainStore, target.Wraps p → p.tempDir.InView view)
    {source : Store} (hsource : source.InView view) (key sourceKey : String) (move : Bool) :
    Lockstep A (fun _ _ => True) (target.copyFrom key source sourceKey move) := by
  have hR := admits_true view
  refine copy_of hA hR hR.leads target htemp hsource
    (delete hA hR source hsource sourceKey fun _ _ _ => Ensures.any _ _) key move
    (fun p _ _ hfile length => storeFile hA p key hfile length) fun o r _ => ?_
  exact call_of_follows hA fun c =>
    (c.copyToFree_spec _ _).mono (fun _ _ h => h.1) fun _ _ h => h.1.follows

end

end Lockstep

end BlobVault
