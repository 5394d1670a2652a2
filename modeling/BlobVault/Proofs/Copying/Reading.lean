import BlobVault.Proofs.Caching.Coherence
import BlobVault.Proofs.WriteOnce

/-!
# Reading and deleting through caches

A store has any number of caches, one in front of the other, before the memory or the container that
keeps its blobs. Reading through them changes no object, and deleting through them makes all of them
forget the key.

1. `World.Warms`: what reads through caches in some directories leave of a world.
2. `Store.CoherentAt`: each cache of a store that has something for a key has what is held under it.
   It is a matter of one key, so two stores may well use overlapping namespaces.
3. `Store.downloads`, by induction on the caches, and `Store.delivers`: what reads get.
4. `Store.delete_spec`: what deletions leave.
-/

namespace BlobVault

open Std (ExtTreeMap)
open KeyStrategy (Accepted)
open FileCache (Fits Turns Adds Thins entryName)

/-! ## Worlds after reads -/

/-- What reads through caches in the given directories leave of a world: every object, the entries
of all other caches and the files of the caller's, and temporary files can be written as before. -/
structure World.Warms (dirs : List String) (w v : World) : Prop where
  containers : ∀ name, (w.container name).Looks (v.container name)
  memories : v.memories = w.memories
  files : v.files = w.files
  writableTemp : ∀ t serial, w.Writable (.temp t serial) → v.Writable (.temp t serial)
  entries : ∀ c : FileCache, c.dir ∉ dirs → c.entries v = c.entries w

namespace World

variable {dirs more : List String} {w v u : World} {t : TempDir} {serial : Nat} {content : Bytes}

namespace Warms

theorem trans (h : w.Warms dirs v) (h' : v.Warms dirs u) : w.Warms dirs u where
  containers name := (h.containers name).trans (h'.containers name)
  memories := h'.memories.trans h.memories
  files := h'.files.trans h.files
  writableTemp t serial ht := h'.writableTemp t serial (h.writableTemp t serial ht)
  entries c hc := (h'.entries c hc).trans (h.entries c hc)

theorem mono (h : w.Warms dirs v) (hdirs : dirs ⊆ more) : w.Warms more v :=
  ⟨h.containers, h.memories, h.files, h.writableTemp, fun c hc =>
    h.entries c fun hmem => hc (hdirs hmem)⟩

theorem of_looks (h : w.Looks v) (dirs : List String) : w.Warms dirs v := by
  refine ⟨h.containers, ?_, ?_, fun t serial ht => h.writable ht, fun c _ => ?_⟩
  · rw [h.rest]
  · rw [h.rest]
  · rw [h.rest]
    rfl

theorem of_turns {c : FileCache} {es : CacheEntries} (h : c.Turns w es v) : w.Warms [c.dir] v := by
  refine ⟨h.containers, h.rest.1, h.rest.2.2.1, fun t serial ht => ?_, fun other hother => ?_⟩
  · obtain ⟨files, hfiles, hwritable⟩ := ht
    exact ⟨files, (h.temps? t).trans hfiles, hwritable⟩
  · unfold FileCache.entries
    rw [h.caches_of_ne fun heq => hother (heq ▸ List.mem_singleton_self _)]

theorem keeps (h : w.Warms dirs v) : w.Keeps v :=
  keeps_of_objects (fun name => (h.containers name).2) h.memories

theorem quiet (h : w.Warms dirs v) (hw : w.Quiet) : v.Quiet := fun name =>
  (h.containers name).1.quiet (hw name)

theorem writable (h : w.Warms dirs v) {path : LocalPath} (hw : w.Writable path) :
    v.Writable path := by
  cases path with
  | caller name =>
    unfold Writable
    rw [h.files]
    exact hw
  | temp t serial => exact h.writableTemp t serial hw
  | detached => exact hw
  | entry dir name => exact hw

/-- No directory for temporary files is gone. -/
theorem temps (h : w.Warms dirs v) (t : TempDir) (hw : ∃ files, w.temps? t = some files) :
    ∃ files, v.temps? t = some files := by
  obtain ⟨files, hfiles⟩ := hw
  have hfree := files.getElem?_fresh
  obtain ⟨new, hnew, -⟩ := h.writableTemp t files.fresh ⟨files, hfiles, fun file hfile =>
    absurd (hfree.symm.trans hfile) nofun⟩
  exact ⟨new, hnew⟩

end Warms

/-- Other directories for temporary files are not concerned. -/
theorem temps?_setTemps_of_ne {other : TempDir} (hne : t ≠ other) (w : World)
    (files : TempFiles) : (w.setTemps t files).temps? other = w.temps? other := by
  cases t with
  | scratch name =>
    cases other with
    | ofCache _ => rfl
    | scratch name' =>
      show (w.scratch.insert name files)[name']? = w.scratch[name']?
      rw [getElem?_insert_of_ne]
      rintro rfl
      exact hne rfl
  | ofCache name =>
    unfold setTemps
    dsimp only
    cases hd : w.caches[name]? with
    | none => rfl
    | some d =>
      cases other with
      | scratch _ => rfl
      | ofCache name' =>
        have hname : name ≠ name' := by
          rintro rfl
          exact hne rfl
        show (w.setCache name _).caches[name']?.bind CacheDir.temps? = _
        rw [caches_setCache_of_ne w hname]
        rfl

/-- Temporary files are no concern of entries. -/
theorem entries_setTemps (w : World) (t : TempDir) (files : TempFiles) (c : FileCache) :
    c.entries (w.setTemps t files) = c.entries w := by
  cases t with
  | scratch name => rfl
  | ofCache dir =>
    unfold setTemps
    dsimp only
    cases hd : w.caches[dir]? with
    | none => rfl
    | some d =>
      dsimp only
      by_cases hdir : dir = c.dir
      · subst hdir
        rw [FileCache.entries_eq (caches_setCache_self w _ _), FileCache.entries_eq hd]
      · unfold FileCache.entries
        rw [caches_setCache_of_ne w hdir]

/-- Where all new temporary files can be written, what could be written still can. -/
theorem warms_setTemps {old files : TempFiles} (hold : w.temps? t = some old)
    (hfiles : ∀ (serial : Nat) (file : TempFile), files[serial]? = some file →
      file.writable = true ∨ old[serial]? = some file) :
    w.Warms [] (w.setTemps t files) := by
  have hrest : (w.setTemps t files).containers = w.containers ∧
      (w.setTemps t files).memories = w.memories ∧ (w.setTemps t files).files = w.files := by
    unfold setTemps setCache
    repeat' split
    all_goals exact ⟨rfl, rfl, rfl⟩
  refine ⟨fun name => ?_, hrest.2.1, hrest.2.2, fun other serial hother => ?_,
    fun c _ => w.entries_setTemps t files c⟩
  · unfold container
    rw [hrest.1]
    exact ⟨.refl _, rfl⟩
  · by_cases hdir : t = other
    · subst hdir
      refine ⟨files, temps?_setTemps hold files, fun file hfile => ?_⟩
      obtain ⟨before, hbefore, hwritable⟩ := hother
      obtain rfl := Option.some.inj (hold.symm.trans hbefore)
      exact (hfiles serial file hfile).elim id (hwritable file)
    · obtain ⟨files', hfiles', hwritable⟩ := hother
      exact ⟨files', (temps?_setTemps_of_ne hdir w files).trans hfiles', hwritable⟩

theorem warms_putTemp (w : World) (t : TempDir) (serial : Nat) (content : Bytes) :
    w.Warms [] (w.putTemp t serial content) := by
  unfold putTemp
  cases hfiles : w.temps? t with
  | none => exact .of_looks (.refl w) []
  | some files =>
    refine warms_setTemps hfiles fun other file hfile => ?_
    by_cases hserial : serial = other
    · rw [← hserial, ExtTreeMap.getElem?_insert_self] at hfile
      rw [← Option.some.inj hfile]
      exact .inl rfl
    · exact .inr ((getElem?_insert_of_ne hserial).symm.trans hfile)

theorem warms_dropTemp (w : World) (t : TempDir) (serial : Nat) :
    w.Warms [] (w.dropTemp t serial) := by
  unfold dropTemp
  cases hfiles : w.temps? t with
  | none => exact .of_looks (.refl w) []
  | some files =>
    refine warms_setTemps hfiles fun other file hfile => .inr ?_
    by_cases hserial : serial = other
    · rw [← hserial, ExtTreeMap.getElem?_erase_self] at hfile
      exact absurd hfile nofun
    · exact (getElem?_erase_of_ne hserial).symm.trans hfile

/-- A world with a temporary file is the world without it and the file put back. -/
theorem eq_putTemp_of_read (h : w.read (.temp t serial) = .ok content) :
    ∃ files, (w.dropTemp t serial).temps? t = some files ∧ files[serial]? = none ∧
      w = (w.dropTemp t serial).putTemp t serial content (!w.isReadOnly (.temp t serial)) := by
  obtain ⟨files, hfiles, hcontent⟩ : ∃ files, w.temps? t = some files ∧
      files[serial]? = some ⟨content, !w.isReadOnly (.temp t serial)⟩ := by
    cases hfile : (w.temps? t).bind (·[serial]?) with
    | none => simp [read, hfile] at h
    | some file =>
      simp only [read, hfile] at h
      obtain rfl := Except.ok.inj h
      simp only [isReadOnly, hfile, Bool.not_not]
      exact Option.bind_eq_some_iff.1 hfile
  have hdrop : w.dropTemp t serial = w.setTemps t (files.erase serial) := by
    unfold dropTemp
    rw [hfiles]
  have hrest : (w.dropTemp t serial).temps? t = some (files.erase serial) := by
    rw [hdrop, temps?_setTemps hfiles]
  refine ⟨files.erase serial, hrest, ExtTreeMap.getElem?_erase_self, ?_⟩
  unfold putTemp
  rw [hrest]
  dsimp only
  rw [hdrop, setTemps_setTemps hfiles, insert_erase_of_getElem? hcontent, setTemps_self hfiles]

/-- What was put into a temporary file is read from it, and it can be written still. -/
theorem read_placed (hw : w.Writable (.temp t serial))
    (hv : (w.place (.temp t serial) content).Looks v) :
    v.read (.temp t serial) = .ok content ∧ v.isReadOnly (.temp t serial) = false := by
  obtain ⟨files, hfiles, -⟩ := hw
  rw [hv.read, hv.isReadOnly]
  exact ⟨read_putTemp hfiles content, isReadOnly_putTemp hfiles content⟩

end World

/-! ## Where the blobs of a store lie -/

namespace PlainStore

variable {w v : World} {key : String}

/-- The place of the object of a key. -/
def place (p : PlainStore) (key : String) : Place := p.placeOf (p.address key)

theorem bytesAt?_place (p : PlainStore) (w : World) (key : String) :
    w.bytesAt? (p.place key) = p.hold? w key := bytesAt?_placeOf p w _

theorem address_eq_of_place_eq {p : PlainStore} {a b : String} (h : p.place a = p.place b) :
    p.address a = p.address b := by
  cases p with
  | memory m => exact (Place.blob.inj h).2
  | remote r => exact (Place.object.inj h).2

theorem place_remote_eq_iff {r o : RemoteStore} {sourceKey : String} :
    (remote r).place key = (remote o).place sourceKey ↔
      r.container = o.container ∧ r.pathFor key = o.pathFor sourceKey := by
  constructor
  · intro h
    obtain ⟨hcontainer, htext⟩ := Place.object.inj h
    exact ⟨hcontainer, congrArg ObjectPath.mk htext⟩
  · rintro ⟨hcontainer, hpath⟩
    exact congrArg₂ Place.object hcontainer (congrArg ObjectPath.text hpath)

theorem hold?_of_keeps (h : w.Keeps v) (p : PlainStore) (key : String) :
    p.hold? v key = p.hold? w key := by
  rw [← bytesAt?_place, ← bytesAt?_place]
  exact h _

theorem hold?_of_fills (h : w.Fills v) (p : PlainStore) {content : Bytes}
    (hheld : p.hold? w key = some content) : p.hold? v key = some content := by
  rw [← bytesAt?_place] at hheld ⊢
  rcases h (p.place key) with heq | hnone
  · rw [heq, hheld]
  · rw [hnone] at hheld
    exact absurd hheld nofun

/-- Where the objects of a store are the same, the same bytes lie. -/
theorem bytesAt?_setObjects (p : PlainStore) (w : World) (blobs : Blobs) {place : Place}
    (h : ∀ address, place = p.placeOf address → blobs[address]? = (p.objects w)[address]?) :
    (p.setObjects w blobs).bytesAt? place = w.bytesAt? place := by
  by_cases hplace : ∃ address, place = p.placeOf address
  · obtain ⟨address, rfl⟩ := hplace
    rw [bytesAt?_placeOf, bytesAt?_placeOf, objects_setObjects]
    exact h address rfl
  · exact p.bytesAt?_setObjects_of_ne w blobs fun address heq => hplace ⟨address, heq⟩

theorem bytesAt?_drop_of_ne (p : PlainStore) (w : World) {place : Place}
    (hne : place ≠ p.place key) : (p.drop w key).bytesAt? place = w.bytesAt? place := by
  apply bytesAt?_setObjects
  intro address haddress
  rw [getElem?_erase_of_ne]
  rintro rfl
  exact hne haddress

theorem bytesAt?_accept_of_ne (p : PlainStore) (w : World) (content : Bytes) {place : Place}
    (hne : place ≠ p.place key) :
    (p.accept w key content).bytesAt? place = w.bytesAt? place := by
  unfold accept
  split
  · rfl
  · apply bytesAt?_setObjects
    intro address haddress
    rw [getElem?_insert_of_ne]
    rintro rfl
    exact hne haddress

/-- Accepting content puts bytes only where none are. -/
theorem fills_accept (p : PlainStore) (w : World) (key : String) (content : Bytes) :
    w.Fills (p.accept w key content) := by
  intro place
  by_cases hplace : place = p.place key
  · subst hplace
    rw [bytesAt?_place, bytesAt?_place, hold?_accept_self]
    cases p.hold? w key with
    | none => exact .inr rfl
    | some held => exact .inl rfl
  · exact .inl (bytesAt?_accept_of_ne p w content hplace)

end PlainStore

namespace Store

/-- The store that keeps the blobs, behind all caches. -/
def base : Store → PlainStore
  | .memory m => .memory m
  | .remote r => .remote r
  | .caching _ _ inner => inner.base

/-- The caches of the store. -/
def caches : Store → List FileCache
  | .memory _ | .remote _ => []
  | .caching _ cache inner => cache :: inner.caches

/-- The directories of the caches. -/
def dirs (s : Store) : List String := s.caches.map FileCache.dir

/-- Where the blob of a key lies. -/
def place (s : Store) (key : String) : Place := s.base.place key

end Store

/-- What lies in a container with one object. -/
theorem World.bytesAt?_of_object {w : World} {name path : String} {content : Bytes}
    (h : w.container name = { objects := ExtTreeMap.insert ∅ path content }) (other : String) :
    w.bytesAt? (.object name other) = if path = other then some content else none := by
  rw [World.bytesAt?_object, h, ExtTreeMap.getElem?_insert, ExtTreeMap.getElem?_empty]
  simp only [Std.LawfulEqCmp.compare_eq_iff_eq]

theorem PlainStore.base_toStore (p : PlainStore) : p.toStore.base = p := by cases p <;> rfl

theorem PlainStore.caches_toStore (p : PlainStore) : p.toStore.caches = [] := by cases p <;> rfl

/-! ## Coherence at a key -/

/-- The directory of the cache is in order, and its entry of the key, if there is one, can be opened
and has the bytes that the store behind it holds. -/
structure FileCache.CoherentAt (c : FileCache) (p : PlainStore) (w : World) (key : String) :
    Prop where
  intact : c.Intact w
  opens : ¬ c.Locked w key
  held : ∀ (content : Bytes) (t : Instant),
    (c.entries w)[entryName key]? = some (.file content t) → p.hold? w key = some content

/-- A cache with one entry is coherent at its key, if the entry can be opened and has what is
held. -/
theorem FileCache.coherentAt_of_entry {c : FileCache} {p : PlainStore} {w : World} {key : String}
    {content : Bytes} {t : Instant}
    (hdir : w.caches[c.dir]? = some { entries := ExtTreeMap.insert ∅ (entryName key) (.file content t) })
    (hheld : p.hold? w key = some content) : c.CoherentAt p w key := by
  have hentry : ∀ (name : String) (node : CacheNode), (c.entries w)[name]? = some node →
      node = .file content t := by
    intro name node hnode
    rw [FileCache.entries_eq hdir, ExtTreeMap.getElem?_insert, ExtTreeMap.getElem?_empty] at hnode
    split at hnode
    · exact (Option.some.inj hnode).symm
    · exact absurd hnode nofun
  refine ⟨⟨⟨∅, ?_⟩, fun name node hnode => ⟨content, t, true, hentry name node hnode⟩⟩, ?_, ?_⟩
  · show (w.caches[c.dir]?).bind CacheDir.temps? = some ∅
    rw [hdir]
    rfl
  · rintro ⟨bytes, t', hnode⟩
    exact absurd (CacheNode.file.inj (hentry _ _ hnode)).2.2 nofun
  · intro bytes t' hnode
    rw [hheld, (CacheNode.file.inj (hentry _ _ hnode)).1]

/-- All caches of the store are coherent at the key. -/
def Store.CoherentAt (s : Store) (w : World) (key : String) : Prop :=
  ∀ c ∈ s.caches, c.CoherentAt s.base w key

/-- What reads through a store leave of a world. -/
structure Store.Warmed (s : Store) (w v : World) : Prop where
  warms : w.Warms s.dirs v
  coherent : ∀ key, s.CoherentAt w key → s.CoherentAt v key

variable {w v u : World} {key : String} {content : Bytes}

theorem FileCache.locked_congr {c : FileCache} (h : c.entries v = c.entries w) (key : String) :
    c.Locked v key ↔ c.Locked w key := by
  unfold FileCache.Locked
  rw [h]

theorem FileCache.Intact.of_warms {c : FileCache} {dirs : List String} (h : c.Intact w)
    (hv : w.Warms dirs v) (hdir : c.dir ∉ dirs) : c.Intact v := by
  refine ⟨hv.temps _ h.temps, ?_⟩
  rw [hv.entries c hdir]
  exact h.isFile

theorem FileCache.CoherentAt.of_entries {c : FileCache} {p : PlainStore}
    (h : c.CoherentAt p w key) (hentries : c.entries v = c.entries w)
    (htemps : ∃ files, v.temps? c.tempDir = some files)
    (hheld : ∀ content, p.hold? w key = some content → p.hold? v key = some content) :
    c.CoherentAt p v key := by
  refine ⟨⟨htemps, ?_⟩, ?_, ?_⟩
  · rw [hentries]
    exact h.intact.isFile
  · rw [FileCache.locked_congr hentries]
    exact h.opens
  · rw [hentries]
    intro content t hnode
    exact hheld content (h.held content t hnode)

/-- A cache in another directory stays as it is. -/
theorem FileCache.CoherentAt.of_warms {c : FileCache} {p : PlainStore} {dirs : List String}
    (h : c.CoherentAt p w key) (hv : w.Warms dirs v) (hdir : c.dir ∉ dirs) :
    c.CoherentAt p v key := by
  refine h.of_entries (hv.entries c hdir) (hv.temps _ h.intact.temps) fun content hheld => ?_
  rwa [PlainStore.hold?_of_keeps hv.keeps]

/-- A coherent cache is so at every key whose entry can be opened. -/
theorem CachedStore.Coherent.coherentAt {s : CachedStore} (h : s.Coherent w)
    (hopen : ¬ s.cache.Locked w key) : s.toStore.CoherentAt w key := by
  have hinner : s.toStore.base = s.inner := s.inner.base_toStore
  have hcaches : s.toStore.caches = [s.cache] := congrArg (s.cache :: ·) s.inner.caches_toStore
  intro c hc
  rw [hcaches, List.mem_singleton] at hc
  subst hc
  refine ⟨h.intact, hopen, fun content t hnode => ?_⟩
  rw [hinner]
  exact h.hold?_of_cached (CachedStore.cached?_eq_some hnode)

namespace Store

variable {s inner : Store} {name : String} {cache : FileCache}

theorem coherentAt_caching :
    (Store.caching name cache inner).CoherentAt w key ↔
      cache.CoherentAt inner.base w key ∧ inner.CoherentAt w key :=
  List.forall_mem_cons

/-- Caches in other directories stay as they are. -/
theorem CoherentAt.of_warms {dirs : List String} (h : s.CoherentAt w key) (hv : w.Warms dirs v)
    (hdirs : ∀ dir ∈ s.dirs, dir ∉ dirs) : s.CoherentAt v key := by
  intro c hc
  exact (h c hc).of_warms hv (hdirs c.dir (List.mem_map_of_mem hc))

theorem CoherentAt.of_looks (h : s.CoherentAt w key) (hv : w.Looks v) : s.CoherentAt v key :=
  h.of_warms (.of_looks hv []) fun _ _ => List.not_mem_nil

namespace Warmed

theorem of_warms_nil (h : w.Warms [] v) : s.Warmed w v :=
  ⟨h.mono (List.nil_subset _), fun _ hkey => hkey.of_warms h fun _ _ => List.not_mem_nil⟩

theorem of_looks (h : w.Looks v) : s.Warmed w v := of_warms_nil (.of_looks h [])

theorem trans (h : s.Warmed w v) (h' : s.Warmed v u) : s.Warmed w u :=
  ⟨h.warms.trans h'.warms, fun key hkey => h'.coherent key (h.coherent key hkey)⟩

/-- What becomes of the inner caches is no concern of a cache in another directory. -/
theorem of_inner (h : inner.Warmed w v) (hdir : cache.dir ∉ inner.dirs) :
    (Store.caching name cache inner).Warmed w v := by
  refine ⟨h.warms.mono (List.subset_cons_self _ _), fun key hkey => ?_⟩
  rw [coherentAt_caching] at hkey ⊢
  exact ⟨hkey.1.of_warms h.warms hdir, h.coherent key hkey.2⟩

/-- A new entry of what is held keeps a cache coherent at every key. -/
theorem of_adds {es : CacheEntries} (hdir : cache.dir ∉ inner.dirs)
    (hturns : cache.Turns w es v) (hadds : Adds (cache.entries w) (entryName key) content es)
    (hheld : inner.base.hold? w key = some content) :
    (Store.caching name cache inner).Warmed w v := by
  have hwarms := World.Warms.of_turns hturns
  refine ⟨hwarms.mono (List.cons_subset_cons _ (List.nil_subset _)), fun other hother => ?_⟩
  rw [coherentAt_caching] at hother ⊢
  rw [← hturns.entries hother.1.intact.dir] at hadds
  have hentry : ∀ (bytes : Bytes) (t : Instant) (writable : Bool),
      (cache.entries v)[entryName other]? = some (.file bytes t writable) →
        (key = other ∧ bytes = content ∧ writable = true) ∨
          (cache.entries w)[entryName other]? = some (.file bytes t writable) := by
    intro bytes t writable hnode
    by_cases hname : entryName key = entryName other
    · obtain rfl := FileCache.entryName_inj hname
      obtain ⟨t', hentry⟩ := hadds.self
      rw [hentry] at hnode
      obtain ⟨rfl, -, rfl⟩ := CacheNode.file.inj (Option.some.inj hnode)
      exact .inl ⟨rfl, rfl, rfl⟩
    · exact .inr (hadds.others _ hname _ hnode)
  refine ⟨⟨?_, ?_, fun bytes t hnode => ?_⟩, hother.2.of_warms hwarms ?_⟩
  · refine hturns.intact hother.1.intact ?_
    rw [← hturns.entries hother.1.intact.dir]
    exact hadds.isFile hother.1.intact.isFile
  · rintro ⟨bytes, t, hnode⟩
    rcases hentry bytes t false hnode with ⟨-, -, hmode⟩ | hbefore
    · exact absurd hmode nofun
    · exact hother.1.opens ⟨bytes, t, hbefore⟩
  · rw [PlainStore.hold?_of_keeps hwarms.keeps]
    rcases hentry bytes t true hnode with ⟨rfl, rfl, -⟩ | hbefore
    · exact hheld
    · exact hother.1.held bytes t hbefore
  · intro dir hmem hdir'
    rw [List.mem_singleton] at hdir'
    exact hdir (hdir' ▸ hmem)

end Warmed

/-! ## Reading -/

/-- Downloads of the key get what the store holds, as long as no fault strikes and the caches are
coherent at the key. -/
def Downloads (s : Store) (key : String) : Prop :=
  ∀ (w : World) (dest : LocalPath), s.CoherentAt w key → w.Quiet → w.Writable dest →
    Ensures (s.readInto key dest) w
      (fun found v => (found = true ∧ ∃ content u, s.base.hold? w key = some content ∧
          s.Warmed w u ∧ (u.place dest content).Looks v) ∨
        (found = false ∧ s.base.hold? w key = none ∧ w.Looks v))
      NoError

/-- The file that a cache gives out has what is held, and can be opened. -/
def Fetches (s : Store) (cache : FileCache) (key : String) (w : World) (path? : Option LocalPath)
    (v : World) : Prop :=
  (∃ content, path? = some (.entry cache.dir (entryName key)) ∧
      s.base.hold? w key = some content ∧ s.Warmed w v ∧
      v.read (.entry cache.dir (entryName key)) = .ok content ∧
      v.isReadOnly (.entry cache.dir (entryName key)) = false) ∨
    (path? = none ∧ s.base.hold? w key = none ∧ w.Looks v)

/-- A download into a temporary file that is then made an entry. -/
theorem install_spec (hdir : cache.dir ∉ inner.dirs) (hkey : Accepted key) (hfits : Fits key)
    (hw : (Store.caching name cache inner).CoherentAt w key) {serial : Nat}
    (hread : w.read (.temp cache.tempDir serial) = .ok content)
    (hopen : w.isReadOnly (.temp cache.tempDir serial) = false)
    (hheld : inner.base.hold? w key = some content) :
    Ensures (cache.install key (.temp cache.tempDir serial)) w
      (fun path v => path = .entry cache.dir (entryName key) ∧
        (Store.caching name cache inner).Warmed w (v.dropTemp cache.tempDir serial) ∧
        (v.dropTemp cache.tempDir serial).read path = .ok content ∧
        (v.dropTemp cache.tempDir serial).isReadOnly path = false) NoError := by
  obtain ⟨files, hfiles, hfree, heq⟩ := World.eq_putTemp_of_read hread
  rw [hopen, Bool.not_false] at heq
  -- the world without the temporary file, in which the entry is made
  have hx := w.warms_dropTemp cache.tempDir serial
  have hwarmed : (Store.caching name cache inner).Warmed w (w.dropTemp cache.tempDir serial) :=
    .of_warms_nil hx
  have hintact := (coherentAt_caching.1 (hwarmed.coherent key hw)).1.intact
  obtain ⟨y, es, hinstall, hturns, hadds⟩ :=
    FileCache.install_spec hintact hfiles hfree hfits hkey.ne_empty content
  rw [← heq] at hinstall
  have hdrop := y.warms_dropTemp cache.tempDir serial
  refine Ensures.of_ok hinstall ⟨rfl, ?_, ?_⟩
  · refine (hwarmed.trans (.of_adds hdir hturns hadds ?_)).trans (.of_warms_nil hdrop)
    rwa [PlainStore.hold?_of_keeps hx.keeps]
  · obtain ⟨t, ht⟩ := hadds.self
    rw [← hturns.entries hintact.dir, ← hdrop.entries cache List.not_mem_nil] at ht
    exact ⟨FileCache.read_entry ht, FileCache.isReadOnly_entry ht⟩

/-- A cache gives out the entry of a key, and makes one of what is behind it if there is none. -/
theorem fetch_spec (hinner : inner.Downloads key) (hdir : cache.dir ∉ inner.dirs)
    (hkey : Accepted key) (hfits : Fits key)
    (hw : (Store.caching name cache inner).CoherentAt w key) (hquiet : w.Quiet) :
    Ensures (cache.fetch key (inner.readInto key)) w
      ((Store.caching name cache inner).Fetches cache key w) NoError := by
  have hcache := (coherentAt_caching.1 hw).1
  rw [cache.fetch_eq]
  rcases hcache.intact.entry hcache.opens with hnode | ⟨content, t, hnode⟩
  swap
  · have hheld := hcache.held content t hnode
    have hturns : cache.Turns w _ (cache.refill w (w.now + 1)
        ((cache.entries w).insert (entryName key) (.file content w.now))) := .refill _ _ _
    have hadds := FileCache.adds_insert (cache.entries w) (entryName key) content w.now true
    refine Ensures.bind_ok (FileCache.touch_hit hcache.intact hfits hkey.ne_empty hnode) ?_
    refine Ensures.pure (.inl ⟨content, rfl, hheld, .of_adds hdir hturns hadds hheld, ?_⟩)
    obtain ⟨t', ht'⟩ := hadds.self
    rw [← hturns.entries hcache.intact.dir] at ht'
    exact ⟨FileCache.read_entry ht', FileCache.isReadOnly_entry ht'⟩
  · refine Ensures.bind_ok (FileCache.touch_miss hcache.intact hfits hkey.ne_empty hnode) ?_
    obtain ⟨files, hfiles⟩ := hcache.intact.temps
    refine withTemp_spec hfiles fun serial hfree => ?_
    have hbegin := w.warms_putTemp cache.tempDir serial []
    have hcoherent : inner.CoherentAt (w.putTemp cache.tempDir serial []) key :=
      (coherentAt_caching.1 hw).2.of_warms hbegin fun _ _ => List.not_mem_nil
    have hwritable := World.writable_putTemp hfiles serial []
    refine Ensures.bind (hinner _ _ hcoherent (hbegin.quiet hquiet) hwritable) ?_
    rintro found v (⟨rfl, content, u, hheld, hu, hv⟩ | ⟨rfl, hnone, hv⟩)
    · rw [PlainStore.hold?_of_keeps hbegin.keeps] at hheld
      -- the world with the temporary file filled
      have hfilled : (Store.caching name cache inner).Warmed w v := by
        refine ((Warmed.of_warms_nil hbegin).trans (hu.of_inner hdir)).trans ?_
        exact (Warmed.of_warms_nil (u.warms_putTemp _ serial content)).trans (.of_looks hv)
      obtain ⟨hread, hopen⟩ := World.read_placed (hu.warms.writable hwritable) hv
      have hheld' : inner.base.hold? v key = some content := by
        rwa [PlainStore.hold?_of_keeps hfilled.warms.keeps]
      have hinstall := install_spec hdir hkey hfits (hfilled.coherent key hw) hread hopen hheld'
      refine Ensures.bind hinstall ?_
      rintro path x ⟨rfl, hx, hentry⟩
      exact Ensures.pure (.inl ⟨content, rfl, hheld, hfilled.trans hx, hentry⟩)
    · rw [PlainStore.hold?_of_keeps hbegin.keeps] at hnone
      obtain ⟨x, rfl, hx⟩ := World.exists_of_putTemp_looks hv
      refine Ensures.pure (.inr ⟨rfl, hnone, ?_⟩)
      rwa [World.dropTemp_putTemp ((hx.temps? _).trans hfiles) hfree]

theorem downloads_plain (p : PlainStore) (hkey : Accepted key) : p.toStore.Downloads key := by
  intro w dest _ hw hdest
  rw [p.base_toStore]
  have hquiet := PlainStore.Quiet.of_world hw p
  refine (PlainStore.readInto_spec hquiet.honest hkey.splitKey hdest).mono ?_
    fun _ _ h => h.1 hquiet
  rintro found v (⟨hfound, content, hheld, hv⟩ | habsent)
  · exact .inl ⟨hfound, content, w, hheld, .of_looks (.refl w), hv⟩
  · exact .inr habsent

/-- Downloads get what the store holds, through however many caches. -/
theorem downloads (s : Store) (hdirs : s.dirs.Nodup) (hkey : Accepted key) (hfits : Fits key) :
    s.Downloads key := by
  induction s with
  | memory m => exact downloads_plain (.memory m) hkey
  | remote r => exact downloads_plain (.remote r) hkey
  | caching name cache inner ih =>
    obtain ⟨hdir, hinner⟩ := List.nodup_cons.1 hdirs
    intro w dest hw hquiet hdest
    show Ensures (if ByteRange.isAnnotated key then _ else _) _ _ _
    rw [if_neg hkey.not_isAnnotated]
    refine Ensures.bind (fetch_spec (ih hinner) hdir hkey hfits hw hquiet) ?_
    rintro path? v (⟨content, rfl, hheld, hv, hread, hopen⟩ | ⟨rfl, hnone, hv⟩)
    · refine Ensures.bind_ok (copyFile_ok hread hopen (hv.warms.writable hdest)) ?_
      exact Ensures.pure (.inl ⟨rfl, content, v, hheld, hv, .refl _⟩)
    · exact Ensures.pure (.inr ⟨rfl, hnone, hv⟩)

/-- The local file of a blob has what the store holds. -/
theorem localFile_spec (hdirs : (Store.caching name cache inner).dirs.Nodup)
    (hkey : Accepted key) (hfits : Fits key)
    (hw : (Store.caching name cache inner).CoherentAt w key) (hquiet : w.Quiet) :
    Ensures ((Store.caching name cache inner).localFile key) w
      (fun lookup v => (∃ content path, lookup = .found path ∧
          inner.base.hold? w key = some content ∧
          (Store.caching name cache inner).Warmed w v ∧ v.read path = .ok content) ∨
        (lookup = .missing ∧ inner.base.hold? w key = none ∧ w.Looks v))
      NoError := by
  obtain ⟨hdir, hinner⟩ := List.nodup_cons.1 hdirs
  rw [localFile_caching, if_neg hkey.not_isAnnotated]
  refine Ensures.bind
    (fetch_spec (inner.downloads hinner hkey hfits) hdir hkey hfits hw hquiet) ?_
  rintro path? v (⟨content, rfl, hheld, hv, hread, -⟩ | ⟨rfl, hnone, hv⟩)
  · exact Ensures.pure (.inl ⟨content, _, rfl, hheld, hv, hread⟩)
  · exact Ensures.pure (.inr ⟨rfl, hnone, hv⟩)

/-- A read of the key gets the content, into every file outside that takes it and as a stream. -/
structure Delivers (s : Store) (w : World) (key : String) (content : Bytes) : Prop where
  file : ∀ dest : LocalPath, dest.IsOutside → w.Writable dest →
    ∃ v, s.readInto key dest w = .ok true v ∧ v.read dest = .ok content
  stream : ∃ stream u v, s.openStream key w = .ok (some stream) u ∧
    stream.drain u = .ok (content, none) v

/-- What is held is delivered, into files and as a stream. -/
theorem delivers (s : Store) (hdirs : s.dirs.Nodup) (hkey : Accepted key) (hfits : Fits key)
    (hw : s.CoherentAt w key) (hquiet : w.Quiet) (hheld : s.base.hold? w key = some content) :
    s.Delivers w key content := by
  refine ⟨fun dest hdest hwritable => ?_, ?_⟩
  · obtain ⟨found, v, hrun, ⟨rfl, bytes, u, hbytes, hu, hv⟩ | ⟨-, hnone, -⟩⟩ :=
      (s.downloads hdirs hkey hfits w dest hw hquiet hwritable).exists_ok
    · rw [hheld] at hbytes
      obtain rfl := Option.some.inj hbytes
      refine ⟨v, hrun, ?_⟩
      rw [hv.read, World.read_place (hu.warms.writable hwritable)]
    · rw [hheld] at hnone
      exact absurd hnone nofun
  · have hplain : ∀ p : PlainStore, p.hold? w key = some content →
        ∃ stream u v, p.toStore.openStream key w = .ok (some stream) u ∧
          stream.drain u = .ok (content, none) v := by
      intro p hp
      obtain ⟨stream?, u, hrun, -, rfl⟩ :=
        (PlainStore.stream_spec (PlainStore.Quiet.of_world hquiet p) key).exists_ok
      rw [hp] at hrun
      exact ⟨_, u, u, hrun, rfl⟩
    cases s with
    | memory m => exact hplain (.memory m) hheld
    | remote r => exact hplain (.remote r) hheld
    | caching name cache inner =>
      obtain ⟨hdir, hinner⟩ := List.nodup_cons.1 hdirs
      have hfetch := fetch_spec (inner.downloads hinner hkey hfits) hdir hkey hfits hw hquiet
      obtain ⟨path?, v, hrun, ⟨bytes, rfl, hbytes, -, hread, -⟩ | ⟨-, hnone, -⟩⟩ :=
        hfetch.exists_ok
      · rw [hheld] at hbytes
        obtain rfl := Option.some.inj hbytes
        refine ⟨.file (.entry cache.dir (entryName key)), v, v, ?_, ?_⟩
        · show (if ByteRange.isAnnotated key then _ else _ : Action _) w = _
          rw [if_neg hkey.not_isAnnotated]
          exact run_bind_ok hrun _
        · exact run_bind_ok (outcome_ok (fileContent_ok hread)) _
      · rw [hheld] at hnone
        exact absurd hnone nofun

/-! ## Deleting -/

/-- All caches of the store have forgotten the key, and no other store's cache is concerned. -/
structure Forgets (s : Store) (key : String) (w v : World) : Prop where
  warms : w.Warms s.dirs v
  caches : ∀ c ∈ s.caches, c.Intact w → c.Intact v ∧ Thins (c.entries w) (c.entries v) ∧
    (c.entries v)[entryName key]? = none

/-- All caches of the store have forgotten the key, and what is behind them has dropped it. -/
def Deleted (s : Store) (key : String) (w v : World) : Prop :=
  ∃ u, s.Forgets key w u ∧ (s.base.drop u key).Looks v

theorem deleted_plain (p : PlainStore) {u : World} (hv : (p.drop w key).Looks u) :
    p.toStore.Deleted key w u := by
  refine ⟨w, ⟨.of_looks (.refl w) _, fun c hc => ?_⟩, ?_⟩
  · rw [p.caches_toStore] at hc
    exact absurd hc List.not_mem_nil
  · rwa [p.base_toStore]

theorem delete_plain (p : PlainStore) (hquiet : w.Quiet) (key : String) :
    Ensures (p.toStore.delete key) w (fun _ v => p.toStore.Deleted key w v) NoError := by
  refine (p.delete_spec w key).mono ?_ fun _ _ h => h
  rintro _ v (hv | ⟨-, hstruck⟩)
  · exact deleted_plain p hv
  · exact absurd (PlainStore.Quiet.of_world hquiet p) hstruck

/-- A deletion makes every cache forget the key, and what is behind them drop it. -/
theorem delete_spec (s : Store) (hdirs : s.dirs.Nodup) (hw : ∀ c ∈ s.caches, c.Intact w)
    (hquiet : w.Quiet) (key : String) :
    Ensures (s.delete key) w (fun _ v => s.Deleted key w v) NoError := by
  induction s generalizing w with
  | memory m => exact delete_plain (.memory m) hquiet key
  | remote r => exact delete_plain (.remote r) hquiet key
  | caching name cache inner ih =>
    obtain ⟨hdir, hinner⟩ := List.nodup_cons.1 hdirs
    obtain ⟨hcache, hcaches⟩ := List.forall_mem_cons.1 hw
    obtain ⟨x, es, hremove, -, hturns, hthins, hnone⟩ := FileCache.remove_spec hcache key
    have hx := World.Warms.of_turns hturns
    have hintact : cache.Intact x := hturns.intact hcache fun other node hnode =>
      hcache.isFile other node (hthins other node hnode)
    have hne : ∀ c ∈ inner.caches, c.dir ∉ [cache.dir] := by
      intro c hc heq
      rw [List.mem_singleton] at heq
      exact hdir (heq ▸ List.mem_map_of_mem hc)
    refine Ensures.bind_ok hremove ((ih hinner (fun c hc => (hcaches c hc).of_warms hx (hne c hc))
      (hx.quiet hquiet)).mono ?_ fun _ _ h => h)
    rintro _ v ⟨u, hu, hv⟩
    refine ⟨u, ⟨?_, ?_⟩, hv⟩
    · refine (hx.mono ?_).trans (hu.warms.mono (List.subset_cons_self _ _))
      exact List.cons_subset_cons _ (List.nil_subset _)
    · refine List.forall_mem_cons.2 ⟨fun _ => ?_, fun c hc h => ?_⟩
      · rw [hu.warms.entries cache hdir, hturns.entries hcache.dir]
        exact ⟨hintact.of_warms hu.warms hdir, hthins, hnone⟩
      · rw [← hx.entries c (hne c hc)]
        exact hu.caches c hc (h.of_warms hx (hne c hc))

end Store

end BlobVault
