import BlobVault.Proofs.Answers
import BlobVault.Proofs.Copying.Reading

/-!
# Look-ups that may fail

A look-up of a key goes through the caches of a store from the outermost on, until one has an entry,
and fills those that had none on the way back. Whatever is in the directories of the caches and
whatever requests fail, it leaves the entries of a cache as they were, marks that of the key as
used, or makes a complete one of it, for which others may go.

1. `Store.serves?`: what a look-up gets where nothing fails, `FileCache.LookedUp` and
   `Store.LookedUp`: what it leaves.
2. `FileCache.touch_spec`, `FileCache.install_any`: the steps in a cache directory in any state.
3. `PlainStore.readInto_any`, `Store.looksUp`, by induction on the caches, and `Store.withFile_any`:
   downloads and files that are handed on.
4. `Store.LookedUp.coherentAt`: coherent caches stay coherent.
-/

namespace BlobVault

open Std (ExtTreeMap)
open FileCache (Adds Thins entryName entries_eq)

/-! ## What a look-up leaves -/

namespace FileCache

/-- What a look-up leaves of the entries of a cache: all of them, or the entry under the name with
another time, or a new one there with what is served, for which others may have gone. -/
inductive LookedUp (es : CacheEntries) (name : String) (served? : Option Bytes) :
    CacheEntries → Prop
  | same : LookedUp es name served? es
  | marked {content : Bytes} {t : Instant} (now : Instant)
      (h : es[name]? = some (.file content t)) :
      LookedUp es name served? (es.insert name (.file content now))
  | filled {content : Bytes} {fs : CacheEntries} (hmiss : es[name]? = none)
      (hserved : served? = some content) (hadds : Adds es name content fs) :
      LookedUp es name served? fs

variable {es fs gs : CacheEntries} {name : String} {served? : Option Bytes} {content : Bytes}

/-- An entry that is made where a look-up found none is as good as made at once. -/
theorem LookedUp.adds (h : LookedUp es name served? fs) (hmiss : es[name]? = none)
    (hserved : served? = some content) (hadds : Adds fs name content gs) :
    LookedUp es name served? gs := by
  refine .filled hmiss hserved ⟨hadds.self, fun other hne node hnode => ?_⟩
  have hfs := hadds.others other hne node hnode
  cases h with
  | same => exact hfs
  | marked now h => exact absurd (hmiss.symm.trans h) nofun
  | filled _ _ h => exact h.others other hne node hfs

/-- A file that a look-up finds under the name keeps its content. -/
theorem LookedUp.keeps (h : LookedUp es name served? fs) {t : Instant} {writable : Bool}
    (hfile : es[name]? = some (.file content t writable)) :
    ∃ t, fs[name]? = some (.file content t writable) := by
  cases h with
  | same => exact ⟨t, hfile⟩
  | marked now h =>
    rw [hfile] at h
    obtain ⟨rfl, -, rfl⟩ := CacheNode.file.inj (Option.some.inj h)
    exact ⟨now, ExtTreeMap.getElem?_insert_self⟩
  | filled hmiss _ _ => exact absurd (hmiss.symm.trans hfile) nofun

/-- An entry after a look-up was there before with the same content, or it is the new one. -/
theorem LookedUp.entry (h : LookedUp es name served? fs) {other : String} {node : CacheNode}
    (hnode : fs[other]? = some node) :
    es[other]? = some node ∨
      (other = name ∧ ∃ content t, node = .file content t ∧
        ((∃ before, es[name]? = some (.file content before)) ∨ served? = some content)) := by
  by_cases hne : name = other
  · subst hne
    cases h with
    | same => exact .inl hnode
    | marked now h =>
      rw [ExtTreeMap.getElem?_insert_self] at hnode
      exact .inr ⟨rfl, _, _, (Option.some.inj hnode).symm, .inl ⟨_, h⟩⟩
    | filled _ hserved hadds =>
      obtain ⟨t, ht⟩ := hadds.self
      rw [ht] at hnode
      exact .inr ⟨rfl, _, _, (Option.some.inj hnode).symm, .inr hserved⟩
  · left
    cases h with
    | same => exact hnode
    | marked now h =>
      rwa [getElem?_insert_of_ne hne] at hnode
    | filled _ _ hadds => exact hadds.others other hne node hnode

end FileCache

namespace Store

/-- What a look-up of a key gets where nothing fails: what the outermost cache with an entry of the
key has, or else what is held behind all caches. -/
def serves? : Store → World → String → Option Bytes
  | .memory m, w, key => (PlainStore.memory m).hold? w key
  | .remote r, w, key => (PlainStore.remote r).hold? w key
  | .caching _ cache inner, w, key => (cache.entry? w key).or (inner.serves? w key)

/-- What a look-up of a key leaves of a world, in whatever way it ends: every object, the files of
the caller's, the entries of all caches but those of the store, and of these what a look-up
leaves. -/
structure LookedUp (s : Store) (key : String) (w v : World) : Prop where
  warms : w.Warms s.dirs v
  entries : ∀ c : FileCache,
    FileCache.LookedUp (c.entries w) (entryName key) (s.serves? w key) (c.entries v)

variable {s inner : Store} {name key : String} {cache : FileCache} {w v u : World}

/-- Without an entry in the outermost cache, what is behind it is served. -/
theorem serves?_of_miss (h : (cache.entries w)[entryName key]? = none) :
    (Store.caching name cache inner).serves? w key = inner.serves? w key := by
  show (cache.entry? w key).or _ = _
  rw [FileCache.entry?_eq_none h, Option.none_or]

/-- What is served is a matter of entries and objects. -/
theorem serves?_of_warms (h : w.Warms [] v) (s : Store) (key : String) :
    s.serves? v key = s.serves? w key := by
  induction s with
  | memory m => exact PlainStore.hold?_of_keeps h.keeps (.memory m) key
  | remote r => exact PlainStore.hold?_of_keeps h.keeps (.remote r) key
  | caching name cache inner ih =>
    show (cache.entry? v key).or (inner.serves? v key) = (cache.entry? w key).or _
    unfold FileCache.entry?
    rw [ih, h.entries cache List.not_mem_nil]

/-- Coherent caches serve what is held. -/
theorem serves?_of_coherentAt (h : s.CoherentAt w key) : s.serves? w key = s.base.hold? w key := by
  induction s with
  | memory m => rfl
  | remote r => rfl
  | caching name cache inner ih =>
    obtain ⟨hcache, hinner⟩ := coherentAt_caching.1 h
    show (cache.entry? w key).or (inner.serves? w key) = inner.base.hold? w key
    rw [ih hinner]
    unfold FileCache.entry?
    split
    · rename_i content t writable hnode
      cases writable with
      | true => rw [hcache.held content t hnode, Option.some_or]
      | false => exact absurd ⟨content, t, hnode⟩ hcache.opens
    · rw [Option.none_or]

namespace LookedUp

theorem refl (s : Store) (key : String) (w : World) : s.LookedUp key w w :=
  ⟨.of_looks (.refl w) _, fun _ => .same⟩

theorem of_warms (h : w.Warms [] v) : s.LookedUp key w v := by
  refine ⟨h.mono (List.nil_subset _), fun c => ?_⟩
  rw [h.entries c List.not_mem_nil]
  exact .same

theorem of_looks (h : w.Looks v) : s.LookedUp key w v := of_warms (.of_looks h [])

theorem after_warms (h : w.Warms [] v) (h' : s.LookedUp key v u) : s.LookedUp key w u := by
  refine ⟨(h.mono (List.nil_subset _)).trans h'.warms, fun c => ?_⟩
  rw [← h.entries c List.not_mem_nil, ← serves?_of_warms h]
  exact h'.entries c

theorem warms_after (h : s.LookedUp key w v) (h' : v.Warms [] u) : s.LookedUp key w u := by
  refine ⟨h.warms.trans (h'.mono (List.nil_subset _)), fun c => ?_⟩
  rw [h'.entries c List.not_mem_nil]
  exact h.entries c

/-- What a look-up behind a cache without the key leaves is what one through the cache leaves. -/
theorem of_inner (h : inner.LookedUp key w v) (hmiss : (cache.entries w)[entryName key]? = none) :
    (Store.caching name cache inner).LookedUp key w v := by
  refine ⟨h.warms.mono (List.subset_cons_self _ _), fun c => ?_⟩
  rw [serves?_of_miss hmiss]
  exact h.entries c

/-- Cached files of the key keep their content. -/
theorem read_entry (h : s.LookedUp key w v) {dir : String} {content : Bytes}
    (hread : w.read (.entry dir (entryName key)) = .ok content) :
    v.read (.entry dir (entryName key)) = .ok content := by
  have hentries := h.entries ⟨dir, ⟨0, 0, 0⟩⟩
  obtain ⟨t, writable, hfile⟩ := FileCache.read_entry_iff (c := ⟨dir, ⟨0, 0, 0⟩⟩).1 hread
  obtain ⟨t', hkept⟩ := hentries.keeps hfile
  exact FileCache.read_entry (c := ⟨dir, ⟨0, 0, 0⟩⟩) hkept

/-- Caches that were coherent at some key are so after the look-up. -/
theorem coherentAt (h : s.LookedUp key w v) (hkey : s.CoherentAt w key) {other : String}
    (hother : s.CoherentAt w other) : s.CoherentAt v other := by
  have hserves := serves?_of_coherentAt hkey
  intro c hc
  have hcache := hother c hc
  refine ⟨⟨h.warms.temps _ hcache.intact.temps, fun name node hnode => ?_⟩, ?_,
    fun content t hnode => ?_⟩
  · rcases (h.entries c).entry hnode with hbefore | ⟨-, content, t, rfl, -⟩
    · exact hcache.intact.isFile name node hbefore
    · exact ⟨content, t, true, rfl⟩
  · rintro ⟨content, t, hnode⟩
    rcases (h.entries c).entry hnode with hbefore | ⟨-, content', t', hfile, -⟩
    · exact hcache.opens ⟨content, t, hbefore⟩
    · exact absurd (CacheNode.file.inj hfile).2.2 nofun
  · rw [PlainStore.hold?_of_keeps h.warms.keeps]
    rcases (h.entries c).entry hnode with hbefore | ⟨hname, content', t', hfile, hsource⟩
    · exact hcache.held content t hbefore
    · obtain rfl := FileCache.entryName_inj hname
      obtain ⟨rfl, -⟩ := CacheNode.file.inj hfile
      rcases hsource with ⟨before, hbefore⟩ | hserved
      · exact hcache.held content before hbefore
      · rw [← hserves, hserved]

end LookedUp

end Store

/-! ## Steps in a cache directory -/

/-- Without a place for temporary files an action that needs one fails and has done nothing; else it
begins with one file more. -/
theorem withTemp_any {α : Type} {dir : TempDir} {use : LocalPath → Action α} {w : World}
    {Q : α → World → Prop} {E : BlobError → World → Prop} (herror : ∀ e, E e w)
    (huse : ∀ serial v, w.Warms [] v → v.Writable (.temp dir serial) →
      Ensures (use (.temp dir serial)) v (fun a x => Q a (x.dropTemp dir serial))
        fun e x => E e (x.dropTemp dir serial)) :
    Ensures (withTemp dir use) w Q E := by
  cases hfiles : w.temps? dir with
  | none => exact Ensures.of_error (withTemp_none hfiles) (herror _)
  | some files =>
    exact withTemp_spec hfiles fun serial _ =>
      huse serial _ (w.warms_putTemp dir serial []) (World.writable_putTemp hfiles serial [])

namespace FileCache

variable {c : FileCache} {w : World} {key : String}

theorem warms_refill (c : FileCache) (w : World) (now : Instant) (es : CacheEntries) :
    w.Warms [c.dir] (c.refill w now es) := .of_turns (.refill w now es)

/-- A look-up marks the entry that it finds as used. It does not take anything for an entry but a
file that can be opened. -/
theorem touch_spec (c : FileCache) (key : String) (w : World) :
    Ensures (c.touch key) w
      (fun path? v => (path? = none ∧ v = w ∧ (c.entries w)[entryName key]? = none) ∨
        (path? = some (.entry c.dir (entryName key)) ∧ (∃ d, w.caches[c.dir]? = some d) ∧
          ∃ content t, (c.entries w)[entryName key]? = some (.file content t) ∧
            v = c.refill w (w.now + 1)
              ((c.entries w).insert (entryName key) (.file content w.now))))
      fun _ v => v = w := by
  unfold touch
  refine Ensures.bind_ok (t := w) (a := w) rfl ?_
  cases hd : w.caches[c.dir]? with
  | none =>
    refine Ensures.pure (.inl ⟨rfl, rfl, ?_⟩)
    unfold entries
    rw [hd]
    exact ExtTreeMap.getElem?_empty
  | some d =>
    dsimp only
    rw [entries_eq hd]
    split
    · exact Ensures.throw rfl
    split
    · exact Ensures.throw rfl
    cases hnode : d.entries[entryName key]? with
    | none => exact Ensures.pure (.inl ⟨rfl, rfl, rfl⟩)
    | some node =>
      match node with
      | .directory => exact Ensures.throw rfl
      | .file _ _ false => exact Ensures.throw rfl
      | .file content t true =>
        refine Ensures.of_ok ?_ (.inr ⟨rfl, ⟨d, rfl⟩, content, t, rfl, rfl⟩)
        rw [refill_eq hd]
        rfl

/-- An eviction takes entries away, and not the one to keep. -/
theorem evictExcept_any (c : FileCache) (keep? : Option String) (w : World) :
    Ensures (c.evictExcept keep?) w
      (fun _ v => w.Warms [c.dir] v ∧ Thins (c.entries w) (c.entries v) ∧
        ∀ name, keep? = some name → (c.entries v)[name]? = (c.entries w)[name]?)
      fun _ v => v = w := by
  refine (c.evictExcept_leaves keep? w).mono ?_ fun _ _ h => h
  rintro _ v ⟨hv, hevicts⟩
  exact ⟨hv ▸ c.warms_refill w w.now _, hevicts.thins, hevicts.keeps⟩

/-- Committing a temporary file makes it the entry of its key, for which others may go, or it fails
and nothing has changed. -/
theorem install_any (c : FileCache) (key : String) (dir : TempDir) (serial : Nat) (w : World) :
    Ensures (c.install key (.temp dir serial)) w
      (fun path v => path = .entry c.dir (entryName key) ∧ w.Warms [c.dir] v ∧
        ∃ content, w.read (.temp dir serial) = .ok content ∧
          Adds (c.entries w) (entryName key) content (c.entries v)
            (!w.isReadOnly (.temp dir serial)))
      fun _ v => v = w := by
  unfold install
  refine Ensures.bind (c.publish_spec key dir serial w) ?_
  rintro _ u ⟨content, hread, ⟨d, hd⟩, rfl⟩
  -- the world once the entry is made
  have hadds := adds_insert (c.entries w) (entryName key) content w.now
    (!w.isReadOnly (.temp dir serial))
  generalize (c.entries w).insert (entryName key) _ = es at hadds ⊢
  have hrefill := c.warms_refill w (w.now + 1) es
  have hdrop := (c.refill w (w.now + 1) es).warms_dropTemp dir serial
  have hmade := hrefill.trans (hdrop.mono (List.nil_subset _))
  have hentries := (hdrop.entries c List.not_mem_nil).trans (entries_refill hd (w.now + 1) _)
  rw [← hentries] at hadds
  have hevict : ∀ x, Ensures (c.evictExcept (some (entryName key))) x
      (fun _ v => x.Warms [c.dir] v ∧ Thins (c.entries x) (c.entries v) ∧
        (c.entries v)[entryName key]? = (c.entries x)[entryName key]?)
      fun _ v => x.Warms [c.dir] v ∧ Thins (c.entries x) (c.entries v) ∧
        (c.entries v)[entryName key]? = (c.entries x)[entryName key]? := by
    refine fun x => (c.evictExcept_any (some (entryName key)) x).mono
      (fun _ v h => ⟨h.1, h.2.1, h.2.2 _ rfl⟩) ?_
    rintro _ v rfl
    exact ⟨.of_looks (.refl _) _, fun _ _ h => h, rfl⟩
  refine Ensures.bind (hevict _).attempt ?_
  rintro _ v ⟨hwarms, hthins, hkeep⟩
  refine Ensures.pure ⟨rfl, hmade.trans hwarms, content, hread, ?_, fun other hne node hnode => ?_⟩
  · rw [hkeep]
    exact hadds.self
  · exact hadds.others other hne node (hthins other node hnode)

end FileCache

/-! ## Downloads that may fail -/

/-- What a fetch brings is put into the destination; of a body that breaks off, a part is. -/
theorem RemoteStore.fetch_save_any (r : RemoteStore) {w : World} {dest : LocalPath}
    (hdest : w.Writable dest) (base : String) (range? : Option ByteRange) :
    Ensures (do
        match ← r.find? (Container.fetch (r.pathFor base) range?) with
        | none => return false
        | some d =>
          save d dest
          return true : Action Bool) w
      (fun found v => (found = true ∧ ∃ content, (PlainStore.remote r).hold? w base = some content ∧
          (w.place dest (Container.part range? content)).Looks v) ∨ (found = false ∧ w.Looks v))
      fun _ v => w.Looks v ∨ ∃ part, (w.place dest part).Looks v := by
  refine Ensures.bind ((r.find?_spec (Container.fetch_spec _ (r.pathFor base) range?)).mono
    (fun _ _ h => h) ?_) ?_
  · rintro e v ⟨d, cause, rfl, ⟨hd, -⟩, -⟩
    exact .inl (.of_container hd)
  rintro delivery? v ⟨d, rfl, ⟨delivery, rfl, hd, content, hfind, hbytes⟩ | ⟨rfl, path, hd, -⟩⟩
  · have hlooks := World.Looks.of_container hd
    have hput := putFile_ok (hlooks.writable hdest) delivery.bytes
    have hplace := hlooks.place dest delivery.bytes
    dsimp only
    unfold save
    rw [bind_assoc]
    refine Ensures.bind_ok hput ?_
    rcases hbytes with ⟨hnone, hall⟩ | ⟨hsome, -⟩
    · rw [hnone]
      refine Ensures.pure (.inl ⟨rfl, content, hfind, ?_⟩)
      rw [hall] at hplace ⊢
      exact hplace
    · obtain ⟨e, he⟩ := Option.ne_none_iff_exists'.1 hsome
      rw [he]
      exact Ensures.bind_error rfl (.inr ⟨delivery.bytes, hplace⟩)
  · exact Ensures.pure (.inr ⟨rfl, .of_container hd⟩)

/-- A download from a store without a cache puts something into the destination and leaves all
else. For a key without a range it is what is held, or the download fails. -/
theorem PlainStore.readInto_any (p : PlainStore) {w : World} {dest : LocalPath}
    (hdest : w.Writable dest) (key : String) :
    Ensures (p.toStore.readInto key dest) w
      (fun found v => (found = true ∧ ∃ content,
          (¬ ByteRange.isAnnotated key = true → p.hold? w key = some content) ∧
          (w.place dest content).Looks v) ∨ (found = false ∧ w.Looks v))
      fun _ v => w.Looks v ∨ ∃ part, (w.place dest part).Looks v := by
  cases p with
  | memory m =>
    obtain ⟨v, hv, hrun⟩ := PlainStore.readInto_run (p := .memory m) (w := w) trivial key dest
    cases hasked : (memory m).asked? w key with
    | none =>
      rw [hasked] at hrun
      exact Ensures.of_ok hrun (.inr ⟨rfl, hv⟩)
    | some content =>
      rw [hasked] at hrun
      have hput := putFile_ok (hv.writable hdest) content
      refine Ensures.of_ok (hrun.trans (run_bind_ok hput _)) (.inl ⟨rfl, content, ?_, hv.place _ _⟩)
      intro hplain
      rw [← asked?_of_splitKey (ByteRange.splitKey_of_not_isAnnotated hplain), hasked]
  | remote r =>
    obtain ⟨base, range?, htarget⟩ : ∃ base range?, (remote r).target key = (base, range?) :=
      ⟨_, _, rfl⟩
    have hsplit : (if r.allowsRange then ByteRange.splitKey key else (key, none)) =
      (base, range?) := htarget
    have hwhole : ¬ ByteRange.isAnnotated key = true → key = base ∧ none = range? := fun hplain =>
      Prod.mk.inj ((target_of_splitKey (ByteRange.splitKey_of_not_isAnnotated hplain)).symm.trans
        htarget)
    show Ensures (r.readInto key dest) w _ _
    unfold RemoteStore.readInto
    rw [hsplit]
    cases range? with
    | none =>
      refine (r.fetch_save_any hdest base none).mono ?_ fun _ _ h => h
      rintro found v (⟨hfound, content, hheld, hv⟩ | h)
      · refine .inl ⟨hfound, content, fun hplain => ?_, hv⟩
        rwa [(hwhole hplain).1]
      · exact .inr h
    | some range =>
      refine Ensures.bind ((r.size?_tells base w).mono (fun _ _ h => h) fun _ _ h => .inl h) ?_
      rintro size? u ⟨hu, -⟩
      cases size? with
      | none => exact Ensures.pure (.inr ⟨rfl, hu⟩)
      | some size =>
        dsimp only
        split
        · exact Ensures.pure (.inr ⟨rfl, hu⟩)
        · refine (r.fetch_save_any (hu.writable hdest) base (some range)).mono ?_ ?_
          · rintro found v (⟨hfound, content, -, hv⟩ | ⟨hfound, hv⟩)
            · exact .inl ⟨hfound, _, fun hplain => absurd (hwhole hplain).2 nofun,
                (hu.place _ _).trans hv⟩
            · exact .inr ⟨hfound, hu.trans hv⟩
          · rintro e v (hv | ⟨part, hv⟩)
            · exact .inl (hu.trans hv)
            · exact .inr ⟨part, (hu.place _ _).trans hv⟩

namespace Store

variable {s inner : Store} {name key : String} {cache : FileCache} {w v u : World} {content : Bytes}

/-- What a change of the entries of one cache leaves is what a look-up leaves, if the entries are
so. -/
theorem LookedUp.of_cache (hwarms : w.Warms [cache.dir] v)
    (hentries : FileCache.LookedUp (cache.entries w) (entryName key)
      ((Store.caching name cache inner).serves? w key) (cache.entries v)) :
    (Store.caching name cache inner).LookedUp key w v := by
  refine ⟨hwarms.mono (List.cons_subset_cons _ (List.nil_subset _)), fun c => ?_⟩
  by_cases hdir : c.dir = cache.dir
  · rw [FileCache.entries_of_dir hdir, FileCache.entries_of_dir hdir]
    exact hentries
  · rw [hwarms.entries c fun hmem => hdir (List.mem_singleton.1 hmem)]
    exact .same

/-- What a download into a temporary file leaves, whether it was filled or not. -/
theorem LookedUp.downloaded {x : World} {t : TempDir} {serial : Nat} (hx : w.Warms [] x)
    (h : s.LookedUp key x u)
    (hv : u.Looks v ∨ ∃ part, (u.place (.temp t serial) part).Looks v) : s.LookedUp key w v := by
  refine (h.after_warms hx).warms_after ?_
  rcases hv with hv | ⟨part, hv⟩
  · exact .of_looks hv []
  · exact (u.warms_putTemp t serial part).trans (.of_looks hv [])

/-- After a look-up behind a cache without the key, the cache gets an entry of it. -/
theorem LookedUp.then_adds (h : inner.LookedUp key w v)
    (hmiss : (cache.entries w)[entryName key]? = none)
    (hserved : inner.serves? w key = some content) (hwarms : v.Warms [cache.dir] u)
    (hadds : Adds (cache.entries v) (entryName key) content (cache.entries u)) :
    (Store.caching name cache inner).LookedUp key w u := by
  have hinner : (Store.caching name cache inner).LookedUp key w v := h.of_inner hmiss
  have hserves : (Store.caching name cache inner).serves? w key = some content :=
    (serves?_of_miss hmiss).trans hserved
  refine ⟨hinner.warms.trans (hwarms.mono (List.cons_subset_cons _ (List.nil_subset _))),
    fun c => ?_⟩
  have hc := hinner.entries c
  by_cases hdir : c.dir = cache.dir
  · rw [FileCache.entries_of_dir hdir, FileCache.entries_of_dir hdir] at hc ⊢
    exact hc.adds hmiss hserves hadds
  · rwa [hwarms.entries c fun hmem => hdir (List.mem_singleton.1 hmem)]

/-- Downloads of the key leave what a look-up leaves, and in the destination what is served, or a
part of it where they fail. -/
def LooksUp (s : Store) (key : String) : Prop :=
  ∀ (w : World) (dest : LocalPath), w.Writable dest →
    Ensures (s.readInto key dest) w
      (fun found v => ∃ u, s.LookedUp key w u ∧
        ((found = true ∧ ∃ content,
            (¬ ByteRange.isAnnotated key = true → s.serves? w key = some content) ∧
            (u.place dest content).Looks v) ∨ (found = false ∧ u.Looks v)))
      fun _ v => ∃ u, s.LookedUp key w u ∧ (u.Looks v ∨ ∃ part, (u.place dest part).Looks v)

/-- A temporary file with what is served behind a cache is made an entry of it. -/
theorem install_any (h : inner.LookedUp key w v)
    (hmiss : (cache.entries w)[entryName key]? = none)
    (hserved : inner.serves? w key = some content) {t : TempDir} {serial : Nat}
    (hread : v.read (.temp t serial) = .ok content)
    (hopen : v.isReadOnly (.temp t serial) = false) :
    Ensures (cache.install key (.temp t serial)) v
      (fun path u => (Store.caching name cache inner).LookedUp key w (u.dropTemp t serial) ∧
        (u.dropTemp t serial).read path = .ok content ∧
        (u.dropTemp t serial).isReadOnly path = false)
      fun _ u => (Store.caching name cache inner).LookedUp key w (u.dropTemp t serial) := by
  refine (cache.install_any key t serial v).mono ?_ ?_
  · rintro path u ⟨rfl, hwarms, content', hread', hadds⟩
    rw [hread] at hread'
    obtain rfl := Except.ok.inj hread'
    rw [hopen, Bool.not_false] at hadds
    have hdrop := u.warms_dropTemp t serial
    refine ⟨(h.then_adds hmiss hserved hwarms hadds).warms_after hdrop, ?_⟩
    obtain ⟨t', ht⟩ := hadds.self
    rw [← hdrop.entries cache List.not_mem_nil] at ht
    exact ⟨FileCache.read_entry ht, FileCache.isReadOnly_entry ht⟩
  · rintro e u rfl
    exact (h.of_inner hmiss).warms_after (u.warms_dropTemp t serial)

/-- The file that a cache gives out has what is served, and can be opened. -/
theorem fetch_any (hinner : inner.LooksUp key) (hplain : ¬ ByteRange.isAnnotated key = true)
    (cache : FileCache) (name : String) (w : World) :
    Ensures (cache.fetch key (inner.readInto key)) w
      (fun path? v => (Store.caching name cache inner).LookedUp key w v ∧
        ∀ path, path? = some path → ∃ content,
          (Store.caching name cache inner).serves? w key = some content ∧
          v.read path = .ok content ∧ v.isReadOnly path = false)
      fun _ v => (Store.caching name cache inner).LookedUp key w v := by
  rw [cache.fetch_eq]
  refine Ensures.bind ((cache.touch_spec key w).mono (fun _ _ h => h) ?_) ?_
  · rintro e v rfl
    exact .refl _ _ _
  rintro path? v (⟨rfl, rfl, hmiss⟩ | ⟨rfl, ⟨d, hd⟩, content, t, hnode, rfl⟩)
  · refine withTemp_any (fun _ => .refl _ _ _) fun serial x hx hwritable => ?_
    -- the look-up behind the cache is one through it, since the cache has no entry of the key
    have hdropped : ∀ y, inner.LookedUp key v y →
        (Store.caching name cache inner).LookedUp key v (y.dropTemp cache.tempDir serial) :=
      fun y hy => (hy.of_inner hmiss).warms_after (y.warms_dropTemp _ _)
    refine Ensures.bind ((hinner x _ hwritable).mono (fun _ _ h => h) ?_) ?_
    · rintro e y ⟨u, hu, hy⟩
      exact hdropped y (LookedUp.downloaded hx hu hy)
    rintro found y ⟨u, hu, ⟨rfl, content, hserved, hy⟩ | ⟨rfl, hy⟩⟩
    · have hyl := LookedUp.downloaded hx hu (.inr ⟨content, hy⟩)
      obtain ⟨hread, hopen⟩ := World.read_placed (hu.warms.writable hwritable) hy
      have hserves : inner.serves? v key = some content := by
        rw [← serves?_of_warms hx]
        exact hserved hplain
      refine Ensures.bind (install_any hyl hmiss hserves hread hopen) ?_
      rintro path z ⟨hz, hentry⟩
      refine Ensures.pure ⟨hz, ?_⟩
      rintro path hpath
      obtain rfl := Option.some.inj hpath
      exact ⟨content, (serves?_of_miss hmiss).trans hserves, hentry⟩
    · exact Ensures.pure ⟨hdropped y ((hu.after_warms hx).warms_after (.of_looks hy [])), nofun⟩
  · have hentries := FileCache.entries_refill hd (w.now + 1)
      ((cache.entries w).insert (entryName key) (.file content w.now))
    refine Ensures.pure ⟨.of_cache (cache.warms_refill _ _ _) ?_, ?_⟩
    · rw [hentries]
      exact .marked _ hnode
    · rintro path hpath
      obtain rfl := Option.some.inj hpath
      have hentry := (congrArg (·[entryName key]?) hentries).trans
        ExtTreeMap.getElem?_insert_self
      refine ⟨content, ?_, FileCache.read_entry hentry, FileCache.isReadOnly_entry hentry⟩
      show (cache.entry? w key).or (inner.serves? w key) = _
      rw [FileCache.entry?_eq_some hnode, Option.some_or]

/-- Keys that carry a range go past all caches. -/
theorem readInto_of_isAnnotated (h : ByteRange.isAnnotated key = true) (s : Store)
    (dest : LocalPath) : s.readInto key dest = s.base.toStore.readInto key dest := by
  induction s with
  | memory m => rfl
  | remote r => rfl
  | caching name cache inner ih =>
    show (if ByteRange.isAnnotated key then _ else _) = inner.base.toStore.readInto key dest
    rw [if_pos h, ih]

/-- Whatever happens, a download leaves what a look-up leaves. -/
theorem looksUp (s : Store) (key : String) : s.LooksUp key := by
  have hbase : ∀ s : Store, s.readInto key = s.base.toStore.readInto key →
      (¬ ByteRange.isAnnotated key = true → ∀ w, s.serves? w key = s.base.hold? w key) →
      s.LooksUp key := by
    intro s hrun hserves w dest hdest
    rw [hrun]
    refine (s.base.readInto_any hdest key).mono ?_ fun _ v h => ⟨w, .refl _ _ _, h⟩
    rintro found v (⟨hfound, content, hheld, hv⟩ | h)
    · refine ⟨w, .refl _ _ _, .inl ⟨hfound, content, fun hplain => ?_, hv⟩⟩
      rw [hserves hplain, hheld hplain]
    · exact ⟨w, .refl _ _ _, .inr h⟩
  by_cases hplain : ByteRange.isAnnotated key = true
  · exact hbase s (funext fun dest => readInto_of_isAnnotated hplain s dest)
      fun h => absurd hplain h
  induction s with
  | memory m => exact hbase _ rfl fun _ _ => rfl
  | remote r => exact hbase _ rfl fun _ _ => rfl
  | caching name cache inner ih =>
    intro w dest hdest
    show Ensures (if ByteRange.isAnnotated key then _ else _) _ _ _
    rw [if_neg hplain]
    refine Ensures.bind ((fetch_any ih hplain cache name w).mono (fun _ _ h => h)
      fun _ v h => ⟨v, h, .inl (.refl v)⟩) ?_
    rintro path? v ⟨hv, hpath⟩
    cases path? with
    | none => exact Ensures.pure ⟨v, hv, .inr ⟨rfl, .refl v⟩⟩
    | some path =>
      obtain ⟨content, hserved, hread, hopen⟩ := hpath path rfl
      refine Ensures.bind_ok (copyFile_ok hread hopen (hv.warms.writable hdest)) ?_
      exact Ensures.pure ⟨v, hv, .inl ⟨rfl, content, fun _ => hserved, .refl _⟩⟩

/-- Whatever happens, handing a blob on in a local file leaves what a look-up leaves, and what is
then done with the file. -/
theorem withFile_any {α : Type} {source : Store} {t : TempDir} {use : LocalPath → Action α}
    {Q : Option α → World → Prop} {E : BlobError → World → Prop}
    (hnone : ∀ v, source.LookedUp key w v → Q none v)
    (herror : ∀ e v, source.LookedUp key w v → E e v)
    (huse : ∀ path content v, v.read path = .ok content → source.LookedUp key w v →
      Ensures (use path) v (fun a x => ∀ y, x.Warms [] y → Q (some a) y)
        fun e x => ∀ y, x.Warms [] y → E e y) :
    Ensures (source.withFile key t use) w Q E := by
  -- through a temporary file
  have htemp : Ensures (withTemp t fun temp => do
      if ← source.readInto key temp then return some (← use temp) else return none) w Q E := by
    refine withTemp_any (fun e => herror e w (.refl _ _ _)) fun serial x hx hwritable => ?_
    refine Ensures.bind ((source.looksUp key x _ hwritable).mono (fun _ _ h => h) ?_) ?_
    · rintro e y ⟨u, hu, hy⟩
      exact herror e _ ((LookedUp.downloaded hx hu hy).warms_after (y.warms_dropTemp _ _))
    rintro found y ⟨u, hu, ⟨rfl, content, -, hy⟩ | ⟨rfl, hy⟩⟩
    · have hread := (World.read_placed (hu.warms.writable hwritable) hy).1
      have hfilled := huse _ content y hread (LookedUp.downloaded hx hu (.inr ⟨content, hy⟩))
      refine Ensures.bind (hfilled.mono (fun _ _ h => h) fun e z h => h _ (z.warms_dropTemp _ _))
        fun a z hz => ?_
      exact Ensures.pure (hz _ (z.warms_dropTemp _ _))
    · have hempty := (hu.after_warms hx).warms_after (.of_looks hy [])
      exact Ensures.pure (hnone _ (hempty.warms_after (y.warms_dropTemp _ _)))
  unfold withFile
  cases source with
  | memory m => exact htemp
  | remote r => exact htemp
  | caching name cache inner =>
    rw [localFile_caching]
    by_cases hplain : ByteRange.isAnnotated key = true
    · rw [if_pos hplain]
      exact htemp
    · rw [if_neg hplain, bind_assoc]
      refine Ensures.bind ((fetch_any (inner.looksUp key) hplain cache name w).mono
        (fun _ _ h => h) herror) ?_
      rintro path? v ⟨hv, hpath⟩
      cases path? with
      | none => exact Ensures.pure (hnone v hv)
      | some path =>
        show Ensures (use path >>= fun a => pure (some a)) v Q E
        obtain ⟨content, -, hread, -⟩ := hpath path rfl
        have hsame : ∀ x : World, x.Warms [] x := fun x => .of_looks (.refl x) []
        refine Ensures.bind ((huse path content v hread hv).mono (fun _ _ h => h)
          fun e x h => h x (hsame x)) fun a x hx => ?_
        exact Ensures.pure (hx x (hsame x))

end Store

end BlobVault
