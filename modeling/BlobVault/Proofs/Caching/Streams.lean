import BlobVault.Proofs.Caching.Age
import BlobVault.Proofs.Caching.Directories
import BlobVault.Proofs.Confinement

/-!
# Streams through a cache

A cache hands out a stream as the place of an entry, and the entry is only opened when the stream is
read. What happens to the entry in between decides what is read: the bytes that it has by then, or a
failure if it was evicted. For its minimum age after the stream was opened the entry is safe, unless
the run is about the key itself.

1. `World.KeepsLocal`, `Within.readInto`, `Within.storeFile` and the like: stores without a cache
   concern no entry, and no local file but the one that they read into.
2. `Within.caching_readInto` and the like: a caching store keeps to what its cache and the store
   behind it keep to.
3. `FileCache.readInto_within`, `FileCache.copySelf_within`, `FileCache.write_ages`: what the
   operations of a caching store make of the entry of a key.
4. `Operation.LeavesAlone`, `FileCache.perform_shelters`, `FileCache.run_usedSince`: steps and runs.
5. `FileCache.drain_after_run`: what an opened stream delivers later on.
-/

namespace BlobVault

open Std (ExtTreeMap)
open FileCache (Ages Fits entryName entries_eq persists_ages)

/-! ## Stores without a cache -/

theorem LocalPath.temp_ne_entry (t : TempDir) (serial : Nat) (dir name : String) :
    LocalPath.temp t serial ≠ .entry dir name := nofun

/-- Nothing but containers and memories has changed. -/
def World.KeepsLocal (w v : World) : Prop :=
  v = { w with containers := v.containers, memories := v.memories }

theorem World.chains_keepsLocal : Chains World.KeepsLocal := by
  refine ⟨fun _ => rfl, fun {w v u} h h' => ?_⟩
  unfold KeepsLocal at h h' ⊢
  rw [h', h]

theorem World.Looks.keepsLocal {w v : World} (h : w.Looks v) : w.KeepsLocal v :=
  (World.Shares.of_looks h).rest

theorem World.Still.of_keepsLocal {w v : World} (h : w.KeepsLocal v) : w.Still v := by
  rw [h]
  exact .of_caches rfl rfl

namespace Within

open World (KeepsLocal Still chains_keepsLocal persists_still)

theorem fileContent_local (path : LocalPath) : Within KeepsLocal (BlobVault.fileContent path) := by
  intro w
  cases hread : w.read path with
  | ok content => exact Ensures.of_ok (fileContent_ok hread) rfl
  | error e => exact Ensures.of_error (fileContent_error hread) rfl

theorem fileContent (path : LocalPath) : Within Still (BlobVault.fileContent path) :=
  (fileContent_local path).mono .of_keepsLocal

/-- A file that is no entry is written without concern to entries. -/
theorem putFile {path : LocalPath} (hpath : ∀ dir name, path ≠ .entry dir name) (content : Bytes) :
    Within Still (BlobVault.putFile path content) := by
  intro w
  unfold BlobVault.putFile
  refine Ensures.bind_ok (a := w) (t := w) rfl ?_
  dsimp only
  by_cases hmode : w.isReadOnly path = true
  · rw [if_pos hmode]
    exact Ensures.bind_error rfl (.refl w)
  rw [if_neg hmode]
  cases path with
  | caller name =>
    dsimp only
    split
    · exact Ensures.throw (.refl w)
    · exact Ensures.set (.of_caches rfl rfl)
  | detached => exact Ensures.throw (.refl w)
  | temp dir serial =>
    dsimp only
    split
    · exact Ensures.set (w.still_setTemps dir _)
    · exact Ensures.throw (.refl w)
  | entry dir name => exact absurd rfl (hpath dir name)

theorem call_local {α : Type} (r : RemoteStore) (x : Call α) : Within KeepsLocal (r.call x) := by
  intro w
  unfold Ensures RemoteStore.call
  dsimp only
  cases x (w.container r.container) with
  | ok _ _ => exact rfl
  | error _ _ => exact rfl

theorem find?_local {α : Type} (r : RemoteStore) (x : Call α) : Within KeepsLocal (r.find? x) := by
  refine (call_local r x).bind chains_keepsLocal fun answer => ?_
  cases answer with
  | ok a => exact pure chains_keepsLocal _
  | error e =>
    cases e with
    | notFound _ => exact pure chains_keepsLocal _
    | _ => exact throw chains_keepsLocal _

theorem contains (p : PlainStore) (key : String) : Within Still (p.toStore.contains key) := by
  cases p with
  | memory m => exact fun w => Ensures.of_ok rfl (.refl w)
  | remote r =>
    exact ((find?_local r (Container.head (r.pathFor key))).mono .of_keepsLocal).map
      persists_still _

theorem openStream_local (p : PlainStore) (key : String) :
    Within KeepsLocal (p.toStore.openStream key) := by
  cases p with
  | memory m => exact fun w => Ensures.of_ok rfl rfl
  | remote r =>
    exact (find?_local r (Container.fetch (r.pathFor key) none)).map chains_keepsLocal _

theorem openStream (p : PlainStore) (key : String) : Within Still (p.toStore.openStream key) :=
  (openStream_local p key).mono .of_keepsLocal

section

variable {R : World → World → Prop} (hR : Chains R)
  (hlocal : ∀ {w v : World}, w.KeepsLocal v → R w v) {dest : LocalPath}
  (hdest : ∀ content, Within R (BlobVault.putFile dest content))

include hR hlocal hdest

theorem download (r : RemoteStore) (path : ObjectPath) (range? : Option ByteRange) :
    Within R (do
        match ← r.find? (Container.fetch path range?) with
        | none => return false
        | some d =>
          RemoteStore.save d dest
          return true : Action Bool) := by
  refine ((find?_local r _).mono hlocal).bind hR fun delivery? => ?_
  cases delivery? with
  | none => exact pure hR _
  | some d =>
    refine bind hR ?_ fun _ => pure hR _
    refine (hdest d.bytes).bind hR fun _ => ?_
    cases d.failure? with
    | none => exact pure hR _
    | some e => exact throw hR _

/-- A download is one more file that is written. -/
theorem readInto_of (p : PlainStore) (key : String) : Within R (p.toStore.readInto key dest) := by
  cases p with
  | memory m =>
    intro w
    obtain ⟨v, hv, hrun⟩ := PlainStore.readInto_run (p := .memory m) (w := w) trivial key dest
    cases hasked : (PlainStore.memory m).asked? w key with
    | none =>
      rw [hasked] at hrun
      exact Ensures.of_ok hrun (hlocal hv.keepsLocal)
    | some content =>
      rw [hasked] at hrun
      have hput := ((hdest content).map hR fun _ => true).after hR (hlocal hv.keepsLocal)
      unfold Ensures at hput ⊢
      rw [hrun]
      exact hput
  | remote r =>
    show Within R (r.readInto key dest)
    unfold RemoteStore.readInto
    generalize (if r.allowsRange then ByteRange.splitKey key else (key, none)) = target
    obtain ⟨base, range?⟩ := target
    cases range? with
    | none => exact download hR hlocal hdest r _ none
    | some range =>
      refine ((find?_local r (Container.head (r.pathFor base))).mono hlocal).bind hR fun size? => ?_
      cases size? with
      | none => exact pure hR _
      | some size =>
        dsimp only
        split
        · exact pure hR _
        · exact download hR hlocal hdest r _ (some range)

end

theorem readInto (p : PlainStore) (key : String) {dest : LocalPath}
    (hdest : ∀ dir name, dest ≠ .entry dir name) : Within Still (p.toStore.readInto key dest) :=
  readInto_of persists_still .of_keepsLocal (putFile hdest) p key

theorem storeFile_local (p : PlainStore) (key : String) (file : LocalPath) (length : Nat) :
    Within KeepsLocal (p.storeFile key file length) := by
  intro w
  have hlocal : ∀ v, p.Puts key w v → w.KeepsLocal v := by
    rintro v (hlooks | ⟨content, hput, -⟩)
    · exact hlooks.keepsLocal
    · exact ((p.shares_setObjects w _).trans (.of_looks hput)).rest
  exact (p.storeFile_puts key file length w).mono (fun _ v h => hlocal v h)
    fun _ v h => hlocal v h.1

theorem storeFile (p : PlainStore) (key : String) (file : LocalPath) (length : Nat) :
    Within Still (p.storeFile key file length) :=
  (storeFile_local p key file length).mono .of_keepsLocal

theorem delete_local (p : PlainStore) (key : String) :
    Within KeepsLocal (p.toStore.delete key) := by
  intro w
  refine (p.delete_spec w key).mono ?_ fun _ _ h => h.elim
  rintro _ v (hdrop | ⟨hlooks, -⟩)
  · exact ((p.shares_setObjects w _).trans (.of_looks hdrop)).rest
  · exact hlooks.keepsLocal

theorem delete (p : PlainStore) (key : String) : Within Still (p.toStore.delete key) :=
  (delete_local p key).mono .of_keepsLocal

/-- An action that keeps to containers and memories may come before another one. -/
theorem local_bind {α β : Type} {S : World → World → Prop} (hS : Leads KeepsLocal S)
    {x : Action α} {f : α → Action β} (hx : Within KeepsLocal x) (hf : ∀ a, Within S (f a)) :
    Within S (x >>= f) := fun w =>
  Ensures.bind ((hx w).mono (fun _ _ h => h) fun _ _ h => hS.here h) fun a v hv =>
    (hf a v).mono (fun _ _ h => hS.before hv h) fun _ _ h => hS.before hv h

/-- A copy inside a container concerns no local file until the source is deleted. -/
theorem copyInside_of {S : World → World → Prop} (hS : Leads KeepsLocal S) {r o : RemoteStore}
    {source : Store} {key sourceKey : String} {move : Bool}
    (hfinish : Within S (if move then (do
        let _ ← source.delete sourceKey
        return some key)
      else return some key : Action (Option String))) :
    Within S (r.copyInside key source o sourceKey move) := by
  have hpure : ∀ a : Option String, Within S (Pure.pure a : Action (Option String)) := fun a =>
    (pure chains_keepsLocal a).mono hS.here
  unfold RemoteStore.copyInside
  refine local_bind hS (find?_local o _) fun size? => ?_
  split
  · exact hpure _
  dsimp only
  split
  · exact hpure _
  refine local_bind hS (find?_local r _) fun size? => ?_
  split
  · refine local_bind hS (call_local r _) fun answer => ?_
    cases answer with
    | ok _ => exact hfinish
    | error e =>
      cases e with
      | alreadyExists _ => exact hfinish
      | notFound _ => exact hpure _
      | generic => exact local_bind hS (throw chains_keepsLocal _) fun _ => hfinish
      | denied _ => exact local_bind hS (throw chains_keepsLocal _) fun _ => hfinish
  · exact hfinish

end Within

namespace PlainStore

/-- Writing a local file under a given key concerns containers and memories alone, and the key is
the given one. -/
theorem write_given_shares (p : PlainStore) (key : String) (file : LocalPath) (w : World) :
    Ensures (p.toStore.write { source := .file file, key? := some key }) w
      (fun k v => k = key ∧ w.Shares v) fun _ v => w.Shares v := by
  have hsame : w.Shares w := .of_looks (.refl w)
  rw [p.write_eq]
  refine WriteRequest.withLocal_file_spec rfl (fun _ _ => hsame) fun k content length hplan _ => ?_
  have hkey : k = key := by
    unfold WriteRequest.plan at hplan
    dsimp only at hplan
    split at hplan
    · rw [WriteRequest.keyed_given (WriteRequest.key?_observed _ _)] at hplan
      exact (Prod.mk.inj (Except.ok.inj hplan)).1.symm
    · exact (Prod.mk.inj (Except.ok.inj hplan)).1.symm
    · exact (Prod.mk.inj (Except.ok.inj hplan)).1.symm
    · exact absurd hplan nofun
  have hshares : ∀ v, p.Puts k w v → w.Shares v := by
    rintro v (hlooks | ⟨bytes, hput, -⟩)
    · exact .of_looks hlooks
    · exact (p.shares_setObjects w _).trans (.of_looks hput)
  exact Ensures.bind ((p.storeFile_puts k file length w).mono (fun _ _ h => h)
    fun _ v h => hshares v h.1) fun _ v hv => Ensures.pure ⟨hkey, hshares v hv⟩

end PlainStore

/-! ## Operations on a caching store -/

theorem Within.drain (stream : BlobStream) : Within World.Still stream.drain := by
  cases stream with
  | delivery d => exact .pure World.persists_still _
  | file path =>
    intro w
    cases hread : w.read path with
    | ok content =>
      exact Ensures.bind_ok (outcome_ok (fileContent_ok hread)) (Ensures.pure (.refl w))
    | error e =>
      exact Ensures.bind_ok (outcome_error (fileContent_error hread)) (Ensures.pure (.refl w))

/-! What the operations of a caching store come to, given what its cache and the store behind it
do. -/

namespace Within

variable {R : World → World → Prop} {name : String} {c : FileCache} {store inner : Store}
  {k : String}

theorem copyFile (hR : Persists R) (path : LocalPath) {dest : LocalPath}
    (hdest : ∀ dir name, dest ≠ .entry dir name) : Within R (BlobVault.copyFile path dest) := by
  refine ((fileContent path).of_still hR).bind hR fun bytes => ?_
  refine bind hR (fun w => Ensures.of_ok rfl (hR.still (.refl w))) fun v => ?_
  refine (of_still hR (.putFile hdest bytes)).bind hR fun _ => ?_
  split
  · exact fun w => Ensures.of_ok rfl (hR.still (w.still_protect hdest))
  · exact .pure hR _

section

variable (hR : Chains R)

include hR

theorem caching_readInto {dest : LocalPath}
    (hcopy : ∀ path, Within R (BlobVault.copyFile path dest))
    (hpast : Within R (inner.readInto k dest)) (hfetch : Within R (c.fetch k (inner.readInto k))) :
    Within R ((Store.caching name c inner).readInto k dest) := by
  show Within _ (if ByteRange.isAnnotated k then _ else _)
  split
  · exact hpast
  · refine hfetch.bind hR fun path? => ?_
    cases path? with
    | none => exact pure hR _
    | some path => exact (hcopy path).bind hR fun _ => pure hR _

theorem caching_localFile (hfetch : Within R (c.fetch k (inner.readInto k))) :
    Within R ((Store.caching name c inner).localFile k) := by
  rw [Store.localFile_caching]
  split
  · exact pure hR _
  · refine hfetch.bind hR fun path? => ?_
    cases path? with
    | none => exact pure hR _
    | some path => exact pure hR _

theorem caching_openStream (hpast : Within R (inner.openStream k))
    (hfetch : Within R (c.fetch k (inner.readInto k))) :
    Within R ((Store.caching name c inner).openStream k) := by
  show Within _ (if ByteRange.isAnnotated k then _ else _)
  split
  · exact hpast
  · exact hfetch.map hR _

theorem caching_contains (hpast : Within R (inner.contains k)) (htouch : Within R (c.touch k)) :
    Within R ((Store.caching name c inner).contains k) := by
  show Within _ (if ByteRange.isAnnotated k then _ else _)
  split
  · exact hpast
  · refine htouch.bind hR fun path? => ?_
    cases path? with
    | none => exact hpast
    | some path => exact pure hR _

end

variable (hR : Persists R)

include hR

theorem perform_stream (h : Within R (store.openStream k)) :
    Within R (store.perform (.stream k)) := by
  refine h.bind hR fun stream? => ?_
  cases stream? with
  | none => exact pure hR _
  | some stream => exact ((drain stream).of_still hR).map hR _

theorem perform_file (h : Within R (store.localFile k)) : Within R (store.perform (.file k)) := by
  refine h.bind hR fun lookup => ?_
  cases lookup with
  | found path => exact ((fileContent path).of_still hR).map hR _
  | missing => exact pure hR _
  | unknown => exact pure hR _

end Within

namespace FileCache

variable {c : FileCache} {p : PlainStore} {key : String} {content : Bytes} {w : World}

section

variable (name : String) (c : FileCache) (p : PlainStore) (k key : String) (content : Bytes)

theorem download_within : Within (c.Ages key content True) (c.fetch k (p.toStore.readInto k)) :=
  fetch_within (fun _ _ => .readInto p k nofun) c k key content

theorem readInto_within {dest : LocalPath} (hdest : ∀ dir name, dest ≠ .entry dir name) :
    Within (c.Ages key content True) ((Store.caching name c p.toStore).readInto k dest) := by
  have hR := persists_ages c key content True
  exact
    .caching_readInto hR (fun path => .copyFile hR path hdest) (.of_still hR (.readInto p k hdest))
    (download_within c p k key content)

theorem localFile_within :
    Within (c.Ages key content True) ((Store.caching name c p.toStore).localFile k) :=
  .caching_localFile (persists_ages c key content True) (download_within c p k key content)

theorem openStream_within :
    Within (c.Ages key content True) ((Store.caching name c p.toStore).openStream k) := by
  have hR := persists_ages c key content True
  exact .caching_openStream hR (.of_still hR (.openStream p k)) (download_within c p k key content)

theorem contains_within :
    Within (c.Ages key content True) ((Store.caching name c p.toStore).contains k) := by
  have hR := persists_ages c key content True
  exact .caching_contains hR (.of_still hR (.contains p k)) (c.touch_within k key content)

theorem delete_within (hk : k ≠ key) :
    Within (c.Ages key content True) ((Store.caching name c p.toStore).delete k) := by
  have hR := persists_ages c key content True
  exact (c.remove_ages hk content).bind hR fun _ => .of_still hR (.delete p k)

/-- Handing a blob on through a local file. -/
theorem withFile_within {α : Type} (t : TempDir) {use : LocalPath → Action α}
    (huse : ∀ path, Within World.Still (use path)) :
    Within (c.Ages key content True) ((Store.caching name c p.toStore).withFile k t use) := by
  have hR := persists_ages c key content True
  refine (localFile_within name c p k key content).bind hR fun lookup => ?_
  cases lookup with
  | found path => exact ((huse path).of_still hR).map hR _
  | missing => exact .pure hR _
  | unknown =>
    refine .withTemp hR fun serial => ?_
    refine (readInto_within name c p k key content (LocalPath.temp_ne_entry t serial)).bind hR
      fun found => ?_
    cases found with
    | false => exact .pure hR _
    | true => exact ((huse _).of_still hR).map hR _

/-- A copy from the caching store to itself passes the cache by where it stores, and a move drops
the source key. -/
theorem copySelf_within (target : String) {move : Bool} (hmove : move = true → k ≠ key) :
    Within (c.Ages key content True)
      (p.toStore.copyFrom target (.caching name c p.toStore) k move) := by
  have hR := persists_ages c key content True
  have hfinish : Within (c.Ages key content True) (if move then (do
        let _ ← (Store.caching name c p.toStore).delete k
        return some target)
      else return some target : Action (Option String)) := by
    cases move with
    | true => exact (delete_within name c p k key content (hmove rfl)).map hR _
    | false => exact .pure hR _
  cases p with
  | memory m =>
    have hstore : ∀ path, Within World.Still (m.storeFile target path) := fun path =>
      .storeFile (.memory m) target path 0
    refine (withFile_within name c (.memory m) k key content m.tempDir hstore).bind hR
      fun done? => ?_
    cases done? with
    | none => exact .pure hR _
    | some _ => exact hfinish
  | remote r =>
    have hleads : Leads World.KeepsLocal (c.Ages key content True) :=
      ⟨fun h => hR.still (.of_keepsLocal h), fun h h' => hR.trans (hR.still (.of_keepsLocal h)) h'⟩
    show Within _ (if r.location = r.location then _ else _)
    rw [if_pos rfl]
    exact .copyInside_of hleads hfinish

/-- A write keeps a copy of what was written under its key: that is safe unless it has other bytes
for the key. -/
theorem write_ages {request : WriteRequest} (hlasting : request.IsLasting)
    (hsame : ∀ bytes, request.plan w = .ok (key, .ok bytes) → bytes = content) :
    Ensures ((Store.caching name c p.toStore).write request) w
      (fun _ v => c.Ages key content True w v) fun _ v => c.Ages key content True w v := by
  have hidle : c.Ages key content True w w := .of_still (.refl w)
  rw [Store.write_caching]
  cases hsource : request.source with
  | stream chunks =>
    cases hfiles : w.temps? c.tempDir with
    | none =>
      unfold WriteRequest.withLocal
      rw [hsource]
      exact Ensures.of_error (withTemp_none hfiles) hidle
    | some files =>
      refine WriteRequest.withLocal_stream_spec hsource hfiles (fun _ _ => hidle)
        fun k bytes serial hplan _ => ?_
      have hput := w.still_putTemp c.tempDir serial bytes
      have hdropped : ∀ {y}, c.Ages key content True (w.putTemp c.tempDir serial bytes) y →
          c.Ages key content True w (y.dropTemp c.tempDir serial) := fun {y} hy =>
        ((Ages.of_still hput).trans hy).trans (.of_still (y.still_dropTemp _ serial))
      refine Ensures.bind ((p.write_given_shares k _ _).mono (fun _ _ h => h)
        fun _ _ h => hdropped (.of_still (.of_shares h))) ?_
      rintro k x ⟨rfl, hx⟩
      have hread : x.read (.temp c.tempDir serial) = .ok bytes :=
        (hx.read _).trans (World.read_putTemp hfiles bytes)
      have hsafe : k = key → x.read (.temp c.tempDir serial) = .ok content := by
        rintro rfl
        rw [hread, hsame bytes hplan]
      have hinstall : Ensures (c.install k (.temp c.tempDir serial)) x
          (fun _ y => c.Ages key content True x y) fun _ y => c.Ages key content True x y :=
        (c.install_ages k c.tempDir serial key content x).mono
          (fun _ _ h => h.2.2.of_safe hsafe) fun _ _ h => h ▸ .of_still (.refl _)
      refine Ensures.bind hinstall.attempt fun _ y hy => ?_
      exact Ensures.pure (hdropped ((Ages.of_still (.of_shares hx)).trans hy))
  | file path =>
    refine WriteRequest.withLocal_file_spec hsource (fun _ _ => hidle)
      fun k bytes? length hplan hread => ?_
    refine Ensures.bind ((p.write_given_shares k path w).mono (fun _ _ h => h)
      fun _ _ h => .of_still (.of_shares h)) ?_
    rintro k x ⟨rfl, hx⟩
    have hsafe : k = key → ∀ held, x.read path = .ok held → held = content := by
      rintro rfl held hheld
      rw [hx.read, hread] at hheld
      exact hsame held (hheld ▸ hplan)
    have hinsert := c.insertFile_ages (hlasting path hsource) hsafe
    refine Ensures.bind hinsert.attempt fun _ y hy => ?_
    exact Ensures.pure ((Ages.of_still (.of_shares hx)).trans hy)

end

/-- A copy from a store without a cache in the directory concerns no entry of the cache. -/
theorem copyFrom_entries (htemp : p.tempDir.InView (c.dir ≠ ·)) {source : Store}
    (hsource : source.InView (c.dir ≠ ·)) (target sourceKey : String) (move : Bool) :
    Within (fun w v => c.entries v = c.entries w)
      (p.toStore.copyFrom target source sourceKey move) := by
  have hA := related_eq_in (c.dir ≠ ·)
  have hR := World.Confined.admits (c.dir ≠ ·) fun _ => True
  suffices hrun : Lockstep (fun w v => v = w ∧ True) (World.Confined (c.dir ≠ ·) fun _ => True)
      (p.toStore.copyFrom target source sourceKey move) by
    have hentries : ∀ {w v : World}, w.Confined (c.dir ≠ ·) (fun _ => True) v →
        c.entries v = c.entries w := by
      intro w v h
      unfold FileCache.entries
      rw [h.caches c.dir fun hne => hne rfl]
    exact fun w => (hrun.ensures ⟨rfl, trivial⟩).mono (fun _ _ => hentries) fun _ _ => hentries
  refine Lockstep.copyFrom hA hR hR.leads p htemp hsource
    (Lockstep.delete hA hR source hsource sourceKey fun q _ w => q.delete_confined trivial w)
    target move (fun file hfile length => (Lockstep.storeFile hA p target hfile length).strengthen
      fun w => p.storeFile_confined trivial file length w) fun o r _ => ?_
  refine Lockstep.call hA fun w => (Container.copyToFree_spec _ _ _).mono ?_ ?_
  · exact fun _ d h => ⟨h.1, fun _ hplace => absurd trivial hplace, fun _ _ => rfl⟩
  · exact fun _ d h => ⟨h.1.follows, fun _ hplace => absurd trivial hplace, fun _ _ => rfl⟩

end FileCache

/-! ## Steps and runs -/

/-- The operation is not about the entry of a key with some content: it writes no other bytes under
the key, neither deletes nor moves the key away nor clears the store, and has no files and copies
from no store in the directory of the cache. -/
def Operation.LeavesAlone (c : FileCache) (key : String) (content : Bytes) (w : World) :
    Operation → Prop
  | .write request => request.IsLasting ∧
      ∀ bytes, request.plan w = .ok (key, .ok bytes) → bytes = content
  | .read _ dest => dest.IsOutside
  | .delete k => k ≠ key
  | .copy _ none k move => move = true → k ≠ key
  | .copy _ (some source) _ _ => source.InView (c.dir ≠ ·)
  | .clear => False
  | .stream _ | .file _ | .contains _ | .evict => True

namespace FileCache

variable {c : FileCache} {p : PlainStore} {key : String} {content : Bytes} {w u : World}
  {start : Instant} {steps : List Step}

/-- An operation that leaves the entry of a key alone shelters it. -/
theorem perform_shelters (name : String) (htemp : p.tempDir.InView (c.dir ≠ ·))
    {operation : Operation} (hop : operation.LeavesAlone c key content w) :
    Ensures ((Store.caching name c p.toStore).perform operation) w
      (fun _ v => c.Shelters key content w v) fun _ v => c.Shelters key content w v := by
  have hR := persists_ages c key content True
  have hages : ∀ {x : Action Answer}, Within (c.Ages key content True) x →
      Ensures x w (fun _ v => c.Shelters key content w v) fun _ v => c.Shelters key content w v :=
    fun hx => (hx w).mono (fun _ _ h => h.shelters trivial) fun _ _ h => h.shelters trivial
  cases operation with
  | write request =>
    exact Ensures.map ((write_ages name c p key content hop.1 hop.2).mono
      (fun _ _ h => h.shelters trivial) fun _ _ h => h.shelters trivial) fun _ _ h => h
  | read k dest =>
    refine hages ((readInto_within name c p k key content ?_).map hR _)
    rintro dir file rfl
    exact hop
  | stream k => exact hages (.perform_stream hR (openStream_within name c p k key content))
  | file k => exact hages (.perform_file hR (localFile_within name c p k key content))
  | contains k => exact hages ((contains_within name c p k key content).map hR _)
  | delete k => exact hages ((delete_within name c p k key content hop).map hR _)
  | copy target source? k move =>
    cases source? with
    | none => exact hages ((copySelf_within name c p k key content target hop).map hR _)
    | some source =>
      exact Ensures.map ((copyFrom_entries htemp hop target k move w).mono
        (fun _ _ => .of_entries) fun _ _ => .of_entries) fun _ _ h => h
  | clear => exact hop.elim
  | evict => exact hages ((evict_within c none key content).map hR _)

/-- The step begins after an entry of the key was used, and ends while the entry is young, and is
not about it. -/
def Protects (c : FileCache) (key : String) (content : Bytes) (start : Instant) (t : Transition) :
    Prop :=
  start ≤ t.before.now ∧ t.after.now < start + c.limits.minAge ∧
    t.operation.LeavesAlone c key content t.before

/-- What every step of a run protects is there after it. -/
theorem run_usedSince (name : String) (htemp : p.tempDir.InView (c.dir ≠ ·))
    (hu : c.UsedSince key content start u)
    (hsteps : ∀ t ∈ (Store.caching name c p.toStore).trace u steps,
      c.Protects key content start t) :
    c.UsedSince key content start ((Store.caching name c p.toStore).run u steps) := by
  unfold Store.run
  induction steps generalizing u with
  | nil => exact hu
  | cons s steps ih =>
    obtain ⟨⟨hstart, hend, hop⟩, hrest⟩ := Store.forall_mem_trace_cons.1 hsteps
    rw [Store.step_before, Store.step_operation] at hop
    rw [Store.step_before] at hstart
    refine ih ?_ hrest
    have hbefore : c.UsedSince key content start { u with now := s.time } := hu.of_entries rfl
    rcases Store.step_spec (perform_shelters name htemp hop) with ⟨_, -, h⟩ | ⟨_, -, h⟩
    · exact h start hstart hend hbefore
    · exact h start hstart hend hbefore

/-! ## Opened streams -/

section

variable {v : World} {stream : BlobStream} (name : String) (hw : c.Intact w)
  (hplain : ¬ ByteRange.isAnnotated key = true) (hne : key ≠ "") (hfits : Fits key)

/-- What is read from the place of an entry. -/
theorem drain_entry (hv : c.Intact v) (key : String) :
    (BlobStream.file (.entry c.dir (entryName key))).drain v =
      .ok (match c.entry? v key with
        | some held => (held, none)
        | none => ([], some (.io .notFound))) v := by
  cases hnode : (c.entries v)[entryName key]? with
  | some node =>
    obtain ⟨held, t, _, rfl⟩ := hv.isFile _ node hnode
    rw [entry?_eq_some hnode]
    exact run_bind_ok (outcome_ok (fileContent_ok (read_entry hnode))) _
  | none =>
    have hread : v.read (.entry c.dir (entryName key)) = .error .notFound := by
      obtain ⟨d, hd⟩ := hv.dir
      rw [entries_eq hd] at hnode
      unfold World.read
      dsimp only
      rw [hd, Option.bind_some, hnode]
    rw [entry?_eq_none hnode]
    exact run_bind_ok (outcome_error (fileContent_error hread)) _

/-- A stream that a cache hands out is a file that it keeps. -/
theorem fetch_of_openStream (hplain : ¬ ByteRange.isAnnotated key = true)
    (hopen : (Store.caching name c p.toStore).openStream key w = .ok (some stream) u) :
    ∃ path, c.fetch key (p.toStore.readInto key) w = .ok (some path) u ∧ stream = .file path := by
  have hfetched : (Store.caching name c p.toStore).openStream key = (do
      return (← c.fetch key (p.toStore.readInto key)).map .file) := if_neg hplain
  rw [hfetched] at hopen
  cases hfetch : c.fetch key (p.toStore.readInto key) w with
  | error e v =>
    rw [run_bind_error hfetch] at hopen
    exact absurd hopen nofun
  | ok path? v =>
    rw [run_bind_ok hfetch] at hopen
    obtain ⟨hmap, rfl⟩ := EStateM.Result.ok.inj hopen
    obtain ⟨path, rfl, hstream⟩ := Option.map_eq_some_iff.1 hmap
    exact ⟨path, rfl, hstream.symm⟩

include hw hplain hne hfits

/-- A stream that a cache hands out is the place of an entry of what is served, which was used just
now. -/
theorem openStream_usedSince (hp : p.Honest w)
    (hopen : (Store.caching name c p.toStore).openStream key w = .ok (some stream) u) :
    stream = .file (.entry c.dir (entryName key)) ∧ ∃ content es, c.serves? p w key = some content ∧
      c.Turns w es u ∧ c.Intact u ∧ c.UsedSince key content w.now u := by
  have hkey := ByteRange.splitKey_of_not_isAnnotated hplain
  obtain ⟨path, hfetch, rfl⟩ := fetch_of_openStream name hplain hopen
  obtain ⟨rfl, held, t, writable, ht, hentry⟩ :=
    ((fetch_ages (fun _ _ => .readInto p key nofun) c key key [] w).ok_of_eq hfetch).2 _ rfl
  have hunlocked : ¬ c.Locked w key := fun hlocked =>
    absurd ((fetch_locked hw hne hfits hlocked _).symm.trans hfetch) nofun
  rcases (fetch_spec hw hp hkey hne hfits hunlocked).ok_of_eq hfetch with
    ⟨content, -, hcontent, es, hturns, hadds⟩ | ⟨hnone, -, -⟩
  · obtain ⟨t', hentry'⟩ := hadds.self
    rw [hturns.entries hw.dir, hentry'] at hentry
    obtain ⟨rfl, rfl, rfl⟩ := CacheNode.file.inj (Option.some.inj hentry)
    refine ⟨rfl, _, es, hcontent, hturns, hturns.intact hw (hadds.isFile hw.isFile), t', true,
      ht, ?_⟩
    rw [hturns.entries hw.dir, hentry']
  · exact absurd hnone nofun

/-- Without faults what is served is handed out, from an entry that can be opened. -/
theorem exists_openStream (hq : p.Quiet w) (hunlocked : ¬ c.Locked w key)
    (hserves : c.serves? p w key = some content) :
    ∃ stream u, (Store.caching name c p.toStore).openStream key w = .ok (some stream) u := by
  have hkey := ByteRange.splitKey_of_not_isAnnotated hplain
  obtain ⟨stream?, u, hrun, hstream⟩ := ((stream_spec name hw hq.honest hkey hne hfits hunlocked).mono
    (fun _ _ h => h) (F := NoError) fun _ _ h => h.1 hq).exists_ok
  rcases hstream with ⟨_, stream, rfl, -⟩ | ⟨-, hnone, -⟩
  · exact ⟨stream, u, hrun⟩
  · rw [hserves] at hnone
    exact absurd hnone nofun

/-- **Opened streams.** Take a cache in front of a store without one, in a directory that the store
does not use, and a stream that it handed out where no fault strikes. Whatever run follows, the
stream delivers what the entry of the key holds by then, or fails if there is no entry. While every
step of the run protects the entry, it is there, and the stream delivers what was served when it was
opened. A stream that the store behind the cache hands out delivers that at any time. -/
theorem drain_after_run (hq : p.Quiet w) (htemp : p.tempDir.InView (c.dir ≠ ·))
    (hopen : (Store.caching name c p.toStore).openStream key w = .ok (some stream) u)
    (steps : List Step) :
    let v := (Store.caching name c p.toStore).run u steps
    stream.drain v = .ok (match c.entry? v key with
        | some held => (held, none)
        | none => ([], some (.io .notFound))) v ∧
      (∃ content, c.serves? p w key = some content ∧
        ((∀ t ∈ (Store.caching name c p.toStore).trace u steps,
            c.Protects key content w.now t) → stream.drain v = .ok (content, none) v)) ∧
      ∀ direct x, p.toStore.openStream key w = .ok (some direct) x →
        ∃ content, p.hold? w key = some content ∧ ∀ y, direct.drain y = .ok (content, none) y := by
  intro v
  obtain ⟨rfl, content, es, hcontent, -, hu, hused⟩ :=
    openStream_usedSince name hw hplain hne hfits hq.honest hopen
  have hv : c.Intact v := c.lasts_intact.run hu _ steps
  have hdrain := drain_entry hv key
  refine ⟨hdrain, ⟨content, hcontent, fun hsteps => ?_⟩, fun direct x hdirect => ?_⟩
  · rw [hdrain, (run_usedSince name htemp hused hsteps).entry?_eq]
  · obtain ⟨_, hrun, -⟩ := PlainStore.stream_run hq key
    rw [hrun] at hdirect
    obtain ⟨hstream, -⟩ := EStateM.Result.ok.inj hdirect
    obtain ⟨bytes, hbytes, rfl⟩ := Option.map_eq_some_iff.1 hstream
    exact ⟨bytes, hbytes, fun _ => rfl⟩

end

/-- A cache that may keep nothing, for a minute: an eviction spares the entry of a stream that was
just opened. -/
theorem drain_after_eviction_of_young :
    let m : MemoryStore := { name := "vault", memory := "vault", tempDir := .scratch "temps" }
    let c : FileCache := ⟨"cache", ⟨0, 0, seconds 60⟩⟩
    let s : Store := .caching "cached" c (.memory m)
    let w : World := {
      memories := ExtTreeMap.insert ∅ "vault" (ExtTreeMap.insert ∅ "a" [120])
      caches := ExtTreeMap.insert ∅ "cache" {} }
    c.Intact w ∧ ¬ ByteRange.isAnnotated "a" = true ∧ "a" ≠ "" ∧ Fits "a" ∧
      (PlainStore.memory m).Quiet w ∧ (PlainStore.memory m).tempDir.InView (c.dir ≠ ·) ∧
      ∃ stream u, s.openStream "a" w = .ok (some stream) u ∧
        (∀ t ∈ s.trace u [⟨0, .evict⟩], c.Protects "a" [120] w.now t) ∧
        stream.drain (s.run u [⟨0, .evict⟩]) = .ok ([120], none) (s.run u [⟨0, .evict⟩]) := by
  intro m c s w
  have hdir : w.caches[c.dir]? = some {} := ExtTreeMap.getElem?_insert_self
  have hw : c.Intact w := intact_of_new hdir
  have hplain : ¬ ByteRange.isAnnotated "a" = true := by decide
  have hheld : (PlainStore.memory m).hold? w "a" = some [120] := by
    show (w.memory "vault")["a"]? = _
    rw [show w.memory "vault" = ExtTreeMap.insert ∅ "a" [120] from
      World.memory_setMemory_self { w with memories := ∅ } "vault" _]
    exact ExtTreeMap.getElem?_insert_self
  have hserves : c.serves? (.memory m) w "a" = some [120] :=
    (serves?_of_miss (entry?_of_new hdir "a")).trans hheld
  obtain ⟨stream, u, hopen⟩ := exists_openStream (p := .memory m) "cached" hw hplain (by decide)
    (by decide) trivial (not_locked_of_miss (entry?_of_new hdir "a")) hserves
  have hnow : (s.step u ⟨0, .evict⟩).after.now = 0 := by
    have hevict : Ensures (s.perform .evict) { u with now := 0 } (fun _ v => v.now = 0)
        fun _ v => v.now = 0 :=
      Ensures.map ((c.evictExcept_ages none "a" [] { u with now := 0 }).mono
        (fun _ _ h => h.2.1) fun _ _ h => h ▸ rfl) fun _ _ h => h
    rcases Store.step_spec (w := u) (s := ⟨0, .evict⟩) hevict with ⟨_, -, h⟩ | ⟨_, -, h⟩
    · exact h
    · exact h
  have hprotects : ∀ t ∈ s.trace u [⟨0, .evict⟩], c.Protects "a" [120] w.now t := by
    intro t ht
    obtain rfl := List.mem_singleton.1 ht
    refine ⟨?_, ?_, ?_⟩
    · rw [Store.step_before]
    · rw [hnow]
      decide
    · rw [Store.step_operation]
      trivial
  obtain ⟨-, ⟨content, hcontent, hdrain⟩, -⟩ := drain_after_run (p := .memory m) "cached" hw hplain
    (by decide) (by decide) trivial trivial hopen [⟨0, .evict⟩]
  rw [hserves] at hcontent
  obtain rfl := Option.some.inj hcontent
  exact ⟨hw, hplain, by decide, by decide, trivial, trivial, stream, u, hopen, hprotects,
    hdrain hprotects⟩

/-- A cache with room for one entry and no minimum age: reading another blob takes away what an
opened stream is about to deliver. -/
theorem stream_lost_to_other_key :
    let m : MemoryStore := { name := "vault", memory := "vault", tempDir := .scratch "temps" }
    let c : FileCache := ⟨"cache", ⟨100, 1, 0⟩⟩
    let s : Store := .caching "cached" c (.memory m)
    let w : World := {
      memories := ExtTreeMap.insert ∅ "vault"
        (ExtTreeMap.insert (ExtTreeMap.insert ∅ "a" [120]) "b" [121])
      caches := ExtTreeMap.insert ∅ "cache" {} }
    let v := fun u => s.run u [⟨0, .stream "b"⟩]
    ∃ stream u, s.openStream "a" w = .ok (some stream) u ∧
      stream.drain u = .ok ([120], none) u ∧
      (PlainStore.memory m).hold? (v u) "a" = some [120] ∧
      stream.drain (v u) = .ok ([], some (.io .notFound)) (v u) := by
  intro m c s w v
  have hdir : w.caches[c.dir]? = some {} := ExtTreeMap.getElem?_insert_self
  have hw : c.Intact w := intact_of_new hdir
  have hplain : ¬ ByteRange.isAnnotated "a" = true := by decide
  have hserves : c.serves? (.memory m) w "a" = some [120] := by
    refine (serves?_of_miss (entry?_of_new hdir "a")).trans ?_
    subst m w
    cbv
  obtain ⟨stream, u, hopen⟩ := exists_openStream (p := .memory m) "cached" hw hplain (by decide)
    (by decide) trivial (not_locked_of_miss (entry?_of_new hdir "a")) hserves
  obtain ⟨rfl, content, es, hcontent, -, hu, hused⟩ := openStream_usedSince (p := .memory m)
    "cached" hw hplain (by decide) (by decide) trivial hopen
  rw [hserves] at hcontent
  obtain rfl := Option.some.inj hcontent
  have hdrain := drain_entry hu "a"
  rw [hused.entry?_eq] at hdrain
  -- the other blob is read, and its entry takes the place
  have hafter : v (w.after (s.openStream "a")) = v u := congrArg v (World.after_of_ok hopen)
  have hlost : c.entry? (v (w.after (s.openStream "a"))) "a" = none ∧
      (PlainStore.memory m).hold? (v (w.after (s.openStream "a"))) "a" = some [120] := by
    subst m c s w v
    cbv
  rw [hafter] at hlost
  have hdrain' := drain_entry (c.lasts_intact.run hu s [⟨0, .stream "b"⟩]) "a"
  rw [show c.entry? (s.run u [⟨0, .stream "b"⟩]) "a" = none from hlost.1] at hdrain'
  exact ⟨_, u, hopen, hdrain, hlost.2, hdrain'⟩

end FileCache

end BlobVault
