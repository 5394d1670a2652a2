import BlobVault.Proofs.Caching.Reading

/-!
# Operations through a cache

A cache in front of a store without one. A read gets the cached bytes of a key, or else what the
inner store holds (`CachedStore.serves?`), and makes an entry of them. The laws here say what each
operation does to the entries and to the inner store, whether the two agree or not.

1. `readInto_spec`, `stream_spec`, `localFile_spec`, `contains_spec`: reads of accepted keys whose
   entry, if there is one, can be opened.
2. `write_spec`: what a write leaves in the inner store and in the cache.
3. `delete_spec`: both forget the key.
-/

namespace BlobVault

open Std (ExtTreeMap)
open KeyStrategy (Accepted)
open FileCache (Fits Turns Adds Thins entryName)

/-- A cache in front of a memory store, or of a remote store with a canonical namespace. -/
structure CachedStore where
  name : String
  cache : FileCache
  inner : PlainStore
  canonical : inner.Canonical

namespace PlainStore

variable {p : PlainStore} {c : FileCache} {w v : World} {es : CacheEntries}

theorem objects_of_turns (h : c.Turns w es v) (p : PlainStore) : p.objects v = p.objects w := by
  cases p with
  | memory m =>
    show v.memories.getD _ _ = w.memories.getD _ _
    rw [h.rest.1]
  | remote r => exact (h.containers r.container).2

theorem hold?_of_turns (h : c.Turns w es v) (p : PlainStore) (key : String) :
    p.hold? v key = p.hold? w key := by
  unfold hold?
  rw [objects_of_turns h]

theorem Quiet.of_turns (h : c.Turns w es v) (hp : p.Quiet w) : p.Quiet v := by
  cases p with
  | memory m => trivial
  | remote r => exact (h.containers r.container).1.quiet hp

theorem not_quiet_of_turns (h : c.Turns w es v) (hp : ¬ p.Quiet v) : ¬ p.Quiet w :=
  fun hq => hp (hq.of_turns h)

/-- What happened to the cache before the objects changed happened to it after that. -/
theorem turns_setObjects (h : c.Turns w es v) (p : PlainStore) (blobs : Blobs) :
    c.Turns (p.setObjects w blobs) es (p.setObjects v blobs) := by
  obtain ⟨now, h⟩ := h
  refine ⟨now, ?_⟩
  have hcommute : c.refill (p.setObjects w blobs) now es =
      p.setObjects (c.refill w now es) blobs := by
    cases p with
    | memory m =>
      show c.refill { w with memories := w.memories.insert m.memory blobs } now es = _
      rw [FileCache.refill_shared]
      show _ = (c.refill w now es).setMemory m.memory blobs
      unfold World.setMemory
      rw [FileCache.refill_rest]
    | remote r =>
      show c.refill { w with containers := w.containers.insert r.container _ } now es = _
      rw [FileCache.refill_shared]
      show _ = (c.refill w now es).setContainer r.container
        { (c.refill w now es).container r.container with objects := blobs }
      rw [FileCache.container_refill]
      unfold World.setContainer
      rw [FileCache.refill_rest]
  rw [hcommute]
  exact setObjects_of_looks h p blobs

theorem turns_drop (h : c.Turns w es v) (p : PlainStore) (key : String) :
    c.Turns (p.drop w key) es (p.drop v key) := by
  unfold drop
  rw [objects_of_turns h]
  exact turns_setObjects h p _

theorem entries_accept (p : PlainStore) (c : FileCache) (w : World) (key : String)
    (content : Bytes) : c.entries (p.accept w key content) = c.entries w := by
  rw [accept_rest]
  rfl

theorem intact_accept (p : PlainStore) (h : c.Intact w) (key : String) (content : Bytes) :
    c.Intact (p.accept w key content) :=
  ⟨by rw [temps?_accept]; exact h.temps, by rw [entries_accept]; exact h.isFile⟩

theorem entries_drop (p : PlainStore) (c : FileCache) (w : World) (key : String) :
    c.entries (p.drop w key) = c.entries w := by
  unfold drop
  rw [setObjects_rest]
  rfl

theorem intact_drop (p : PlainStore) (h : c.Intact w) (key : String) : c.Intact (p.drop w key) := by
  have hrest := p.setObjects_rest w ((p.objects w).erase (p.address key))
  unfold drop
  rw [hrest]
  exact ⟨h.temps, h.isFile⟩

end PlainStore

/-- The local file of a request, if it has one, is no temporary file. -/
def WriteRequest.IsLasting (r : WriteRequest) : Prop :=
  ∀ path, r.source = .file path → ¬ path.IsTemporary

/-- An entry that is made of what a request brings can be opened. A copy of a file is as the file
itself. -/
def WriteRequest.opens (r : WriteRequest) (w : World) : Bool :=
  match r.source with
  | .stream _ => true
  | .file path => !w.isReadOnly path

theorem WriteRequest.opens_stream {r : WriteRequest} {chunks : ContentStream}
    (h : r.source = .stream chunks) (w : World) : r.opens w = true := by
  unfold opens
  rw [h]

theorem WriteRequest.opens_file {r : WriteRequest} {path : LocalPath} (h : r.source = .file path)
    (w : World) : r.opens w = !w.isReadOnly path := by
  unfold opens
  rw [h]

namespace CachedStore

variable {s : CachedStore} {w v : World} {key : String} {es : CacheEntries}

/-- The caching store among all stores. -/
def toStore (s : CachedStore) : Store := .caching s.name s.cache s.inner.toStore

/-- What the cache has for a key. -/
def cached? (s : CachedStore) (w : World) (key : String) : Option Bytes :=
  match (s.cache.entries w)[entryName key]? with
  | some (.file content _ _) => some content
  | _ => none

/-- What a read of a key gets: what the cache has, or else what the inner store holds. -/
def serves? (s : CachedStore) (w : World) (key : String) : Option Bytes :=
  (s.cached? w key).or (s.inner.hold? w key)

theorem cached?_eq_some {content : Bytes} {t : Instant} {writable : Bool}
    (h : (s.cache.entries w)[entryName key]? = some (.file content t writable)) :
    s.cached? w key = some content := by
  unfold cached?
  rw [h]

/-! ## Reading -/

/-- What is left of the world when a look-up has made sure that there is an entry. -/
def Fetched (s : CachedStore) (w : World) (key : String) (content : Bytes) (v : World) : Prop :=
  ∃ es, Turns s.cache w es v ∧ Adds (s.cache.entries w) (entryName key) content es

/-- What is left of the world when nothing has become of the entries. -/
def Unchanged (s : CachedStore) (w v : World) : Prop := Turns s.cache w (s.cache.entries w) v

theorem Unchanged.of_looks (h : w.Looks v) : s.Unchanged w v := Turns.of_looks h

theorem Fetched.read {content : Bytes} (h : s.Fetched w key content v) (hw : s.cache.Intact w) :
    v.read (.entry s.cache.dir (entryName key)) = .ok content :=
  FileCache.Fetched.read h hw

/-- Reading delivers to a writable place what the store serves. -/
theorem readInto_spec (hw : s.cache.Intact w) (hp : s.inner.Honest w) (hkey : Accepted key)
    (hfits : Fits key) (hopen : ¬ s.cache.Locked w key) {dest : LocalPath}
    (hdest : dest.IsOutside) :
    Ensures (s.toStore.readInto key dest) w
      (fun found v => (found = true ∧ ∃ content u, s.serves? w key = some content ∧
          s.Fetched w key content u ∧ w.Writable dest ∧ v = u.place dest content) ∨
        (found = false ∧ s.serves? w key = none ∧ s.Unchanged w v))
      fun _ v => (¬ s.inner.Quiet w ∧ s.Unchanged w v) ∨
        (¬ w.Writable dest ∧ ∃ content, s.serves? w key = some content ∧
          s.Fetched w key content v) :=
  FileCache.readInto_spec s.name hw hp hkey.splitKey hkey.ne_empty hfits hopen hdest

/-- Opening a blob and reading it to its end delivers what the store serves. -/
theorem stream_spec (hw : s.cache.Intact w) (hp : s.inner.Honest w) (hkey : Accepted key)
    (hfits : Fits key) (hopen : ¬ s.cache.Locked w key) :
    Ensures (s.toStore.openStream key) w
      (fun stream? v => (∃ content stream, stream? = some stream ∧ s.serves? w key = some content ∧
          s.Fetched w key content v ∧ stream.drain v = .ok (content, none) v) ∨
        (stream? = none ∧ s.serves? w key = none ∧ s.Unchanged w v))
      fun _ v => ¬ s.inner.Quiet w ∧ s.Unchanged w v :=
  FileCache.stream_spec s.name hw hp hkey.splitKey hkey.ne_empty hfits hopen

/-- The local file of a blob holds what the store serves. -/
theorem localFile_spec (hw : s.cache.Intact w) (hp : s.inner.Honest w) (hkey : Accepted key)
    (hfits : Fits key) (hopen : ¬ s.cache.Locked w key) :
    Ensures (s.toStore.localFile key) w
      (fun lookup v => (∃ content, lookup = .found (.entry s.cache.dir (entryName key)) ∧
          s.serves? w key = some content ∧ s.Fetched w key content v) ∨
        (lookup = .missing ∧ s.serves? w key = none ∧ s.Unchanged w v))
      fun _ v => ¬ s.inner.Quiet w ∧ s.Unchanged w v :=
  FileCache.localFile_spec s.name hw hp hkey.splitKey hkey.ne_empty hfits hopen

/-- A blob is there if the store serves it. -/
theorem contains_spec (hw : s.cache.Intact w) (hp : s.inner.Honest w) (hkey : Accepted key)
    (hfits : Fits key) (hopen : ¬ s.cache.Locked w key) :
    Ensures (s.toStore.contains key) w
      (fun b v => b = (s.serves? w key).isSome ∧ (s.Unchanged w v ∨
        ∃ content, s.cached? w key = some content ∧ s.Fetched w key content v))
      fun _ v => ¬ s.inner.Quiet w ∧ s.Unchanged w v :=
  FileCache.contains_spec s.name hw hp hkey.splitKey hkey.ne_empty hfits hopen

/-! ## Writing -/

/-- What is left of the world when content was written: the inner store has kept what it had, or
taken the content, and the cache has an entry of the content if the key can have one, which can be
opened or not. -/
def Written (s : CachedStore) (w : World) (key : String) (content : Bytes) (opens : Bool)
    (v : World) : Prop :=
  ∃ es, Turns s.cache (s.inner.accept w key content) es v ∧
    ((Fits key ∧ Adds (s.cache.entries w) (entryName key) content es opens) ∨
      (¬ Fits key ∧ es = s.cache.entries w))

/-- What is written through a temporary file goes into the cache with the file itself. -/
theorem install_written_spec (hw : s.cache.Intact w) {u : World} {content : Bytes}
    {files : TempFiles} {serial : Nat} (hu : (s.inner.accept w key content).Looks u)
    (hfiles : w.temps? s.cache.tempDir = some files) (hfree : files[serial]? = none)
    (hne : key ≠ "") :
    Ensures (do
        attempt (do let _ ← s.cache.install key (.temp s.cache.tempDir serial))
        return key) (u.putTemp s.cache.tempDir serial content)
      (fun k v => k = key ∧ s.Written w key content true (v.dropTemp s.cache.tempDir serial))
      NoError := by
  have hturns : Turns s.cache (s.inner.accept w key content) (s.cache.entries w) u := by
    rw [← s.inner.entries_accept]
    exact Turns.of_looks hu
  have hintact := s.inner.intact_accept hw key content
  have hfiles' : u.temps? s.cache.tempDir = some files := by
    rw [hu.temps?, PlainStore.temps?_accept, hfiles]
  by_cases hfits : Fits key
  · obtain ⟨x, es, hinstall, hx, hadds⟩ := FileCache.install_spec (hturns.intact hintact hw.isFile)
      hfiles' hfree hfits hne content
    refine Ensures.bind_ok (attempt_ok hinstall) (Ensures.pure ⟨rfl, es, ?_, ?_⟩)
    · rw [World.dropTemp_of_free ((hx.temps? _).trans hfiles') hfree]
      exact hturns.trans hx
    · rw [hturns.entries hintact.dir] at hadds
      exact .inl ⟨hfits, hadds⟩
  · refine Ensures.bind_ok (attempt_error (FileCache.install_long hfiles' hfits)) ?_
    refine Ensures.pure ⟨rfl, _, ?_, .inr ⟨hfits, rfl⟩⟩
    rw [World.dropTemp_putTemp hfiles' hfree]
    exact hturns

/-- What is written from a local file goes into the cache as a copy of the file. -/
theorem insert_written_spec (hw : s.cache.Intact w) {content : Bytes} {path : LocalPath}
    (hv : (s.inner.accept w key content).Looks v) (hpath : ¬ path.IsTemporary)
    (hread : w.read path = .ok content) (hne : key ≠ "") :
    Ensures (do
        attempt (do let _ ← s.cache.insertFile key path)
        return key) v
      (fun k x => k = key ∧ s.Written w key content (!w.isReadOnly path) x) NoError := by
  have hturns : Turns s.cache (s.inner.accept w key content) (s.cache.entries w) v := by
    rw [← s.inner.entries_accept]
    exact Turns.of_looks hv
  have hintact := s.inner.intact_accept hw key content
  have hread' : v.read path = .ok content := by
    rw [hv.read, PlainStore.read_accept, hread]
  have hmode : v.isReadOnly path = w.isReadOnly path := by
    rw [hv.isReadOnly, PlainStore.isReadOnly_accept]
  have hinsert := FileCache.insertFile_spec (hturns.intact hintact hw.isFile) hne hpath
  cases hrun : s.cache.insertFile key path v with
  | ok place x =>
    obtain ⟨hfits, content', es, hcontent, hx, hadds⟩ := hinsert.ok_of_eq hrun
    rw [hread'] at hcontent
    obtain rfl := Except.ok.inj hcontent
    refine Ensures.bind_ok (attempt_ok hrun) (Ensures.pure ⟨rfl, es, hturns.trans hx, ?_⟩)
    rw [hturns.entries hintact.dir, hmode] at hadds
    exact .inl ⟨hfits, hadds⟩
  | error e x =>
    obtain ⟨rfl, hlong | ⟨cause, hcause⟩⟩ := hinsert.error_of_eq hrun
    · refine Ensures.bind_ok (attempt_error hrun) ?_
      exact Ensures.pure ⟨rfl, _, hturns, .inr ⟨hlong, rfl⟩⟩
    · rw [hread'] at hcause
      exact absurd hcause nofun

/-- Nothing goes into the cache from a file that cannot be read. -/
theorem insert_unreadable_spec (hw : s.cache.Intact w) {path : LocalPath} {cause : IoError}
    (hv : w.Looks v) (hpath : ¬ path.IsTemporary) (hread : w.read path = .error cause)
    (hne : key ≠ "") :
    Ensures (do
        attempt (do let _ ← s.cache.insertFile key path)
        return key) v
      (fun k x => k = key ∧ s.Unchanged w x) NoError := by
  have hturns : s.Unchanged w v := .of_looks hv
  have hinsert := FileCache.insertFile_spec (hturns.intact hw hw.isFile) hne hpath
  cases hrun : s.cache.insertFile key path v with
  | ok place x =>
    obtain ⟨-, content, es, hcontent, -⟩ := hinsert.ok_of_eq hrun
    rw [hv.read, hread] at hcontent
    exact absurd hcontent nofun
  | error e x =>
    obtain ⟨rfl, -⟩ := hinsert.error_of_eq hrun
    exact Ensures.bind_ok (attempt_error hrun) (Ensures.pure ⟨rfl, hturns⟩)

/-- A write carries out its plan: it fails with the inner store, or both stores have the content. A
directory in place of a file passes only where its content is not needed. -/
theorem write_spec (hw : s.cache.Intact w) (hp : s.inner.Honest w) {r : WriteRequest}
    (hr : r.IsLasting) (hkey : ∀ key content, r.plan w = .ok (key, content) → key ≠ "") :
    Ensures (s.toStore.write r) w
      (fun key v => (∃ content, r.plan w = .ok (key, .ok content) ∧
          s.Written w key content (r.opens w) v) ∨
        (∃ cause, r.plan w = .ok (key, .error cause) ∧ (s.inner.hold? w key).isSome ∧
          s.Unchanged w v))
      fun e v => s.Unchanged w v ∧ (r.plan w = .error e ∨ ¬ s.inner.Quiet w ∨
        ∃ key cause, r.plan w = .ok (key, .error cause) ∧ e = .io cause ∧
          s.inner.hold? w key = none) := by
  have hwrite : s.toStore.write r = r.withLocal s.cache.tempDir _ := Store.write_caching ..
  rw [hwrite]
  cases hsource : r.source with
  | stream chunks =>
    obtain ⟨files, hfiles⟩ := hw.temps
    refine WriteRequest.withLocal_stream_spec hsource hfiles
      (fun e he => ⟨.of_looks (.refl w), .inl he⟩) fun key content serial hplan hfree => ?_
    have hread : (w.putTemp s.cache.tempDir serial content).read (.temp s.cache.tempDir serial) =
        .ok content := World.read_putTemp hfiles content
    refine Ensures.bind ((PlainStore.write_file_spec (hp.putTemp _ _ _) key hread nofun).mono
      (fun _ _ h => h) ?_) ?_
    · rintro e v ⟨hv, hquiet | ⟨_, hcause, -⟩⟩
      · obtain ⟨u, rfl, hu⟩ := World.exists_of_putTemp_looks hv
        rw [PlainStore.quiet_putTemp] at hquiet
        refine ⟨?_, .inr (.inl hquiet)⟩
        rw [World.dropTemp_putTemp ((hu.temps? _).trans hfiles) hfree]
        exact .of_looks hu
      · exact absurd hcause nofun
    · rintro k v ⟨rfl, ⟨bytes, hbytes, hv⟩ | ⟨_, hcause, -⟩⟩
      · obtain rfl := Except.ok.inj hbytes
        rw [PlainStore.accept_putTemp] at hv
        obtain ⟨u, rfl, hu⟩ := World.exists_of_putTemp_looks hv
        dsimp only
        rw [if_pos rfl]
        refine (install_written_spec hw hu hfiles hfree (hkey k _ hplan)).mono ?_ fun _ _ h => h.elim
        rintro _ v ⟨rfl, hv⟩
        exact .inl ⟨content, hplan, r.opens_stream hsource w ▸ hv⟩
      · exact absurd hcause nofun
  | file path =>
    have hpath := hr path hsource
    refine WriteRequest.withLocal_file_spec hsource
      (fun e he => ⟨.of_looks (.refl w), .inl he⟩) fun key content length hplan hread => ?_
    have hcause : ∀ cause, content = .error cause → cause = .isADirectory := by
      rintro cause rfl
      exact WriteRequest.cause_of_plan hplan
    refine Ensures.bind
      ((PlainStore.write_file_spec hp key hread hcause).mono (fun _ _ h => h) ?_) ?_
    · rintro e v ⟨hv, hquiet | ⟨cause, rfl, rfl, hfree⟩⟩
      · exact ⟨.of_looks hv, .inr (.inl hquiet)⟩
      · exact ⟨.of_looks hv, .inr (.inr ⟨key, cause, hplan, rfl, hfree⟩)⟩
    rintro k v ⟨rfl, ⟨content, rfl, hv⟩ | ⟨cause, rfl, hheld, hv⟩⟩
    · dsimp only
      rw [if_neg Bool.false_ne_true]
      refine (insert_written_spec hw hv hpath hread (hkey k _ hplan)).mono ?_ fun _ _ h => h.elim
      rintro _ x ⟨rfl, hx⟩
      exact .inl ⟨content, hplan, r.opens_file hsource w ▸ hx⟩
    · dsimp only
      rw [if_neg Bool.false_ne_true]
      refine (insert_unreadable_spec hw hv hpath hread (hkey k _ hplan)).mono ?_
        fun _ _ h => h.elim
      rintro _ x ⟨rfl, hx⟩
      exact .inr ⟨cause, hplan, hheld, hx⟩

/-! ## Deleting -/

/-- What is left of the world when a key was deleted: there is no entry of it, and the inner store
has dropped it, unless that failed. -/
def Deleted (s : CachedStore) (w : World) (key : String) (v : World) : Prop :=
  ∃ es, Thins (s.cache.entries w) es ∧ es[entryName key]? = none ∧
    (Turns s.cache (s.inner.drop w key) es v ∨ (Turns s.cache w es v ∧ ¬ s.inner.Quiet w))

theorem delete_spec (hw : s.cache.Intact w) (key : String) :
    Ensures (s.toStore.delete key) w (fun _ v => s.Deleted w key v) NoError := by
  obtain ⟨u, es, hremove, -, hturns, hthins, hnone⟩ := FileCache.remove_spec hw key
  refine Ensures.bind_ok hremove ((s.inner.delete_spec u key).mono ?_ fun _ _ h => h)
  rintro _ v (hv | ⟨hv, hquiet⟩)
  · exact ⟨es, hthins, hnone, .inl ((PlainStore.turns_drop hturns _ key).looks hv)⟩
  · exact ⟨es, hthins, hnone,
      .inr ⟨hturns.looks hv, PlainStore.not_quiet_of_turns hturns hquiet⟩⟩

/-- What is left of the world when the store was cleared: no entry, and whatever of the inner
store. -/
def Cleared (s : CachedStore) (w v : World) : Prop :=
  ∃ u es, Turns s.cache w es u ∧ (∀ name : String, es[name]? = none) ∧ u.Shares v

theorem clear_spec (hw : s.cache.Intact w) :
    Ensures s.toStore.clear w (fun _ v => s.Cleared w v) fun _ v => s.Cleared w v := by
  obtain ⟨u, es, hclear, -, hturns, hnone⟩ := FileCache.clear_spec hw
  refine Ensures.bind_ok hclear ((s.inner.clear_spec u).mono ?_ ?_)
  · exact fun _ v hv => ⟨u, es, hturns, hnone, hv⟩
  · exact fun _ v hv => ⟨u, es, hturns, hnone, hv⟩

end CachedStore

end BlobVault
