import BlobVault.Proofs.Answers
import BlobVault.Proofs.Caching.ReadAfterWrite
import BlobVault.Proofs.Integrity
import BlobVault.Proofs.Isolation

/-!
# Providers that share a cache directory

The entries of a cache are named by keys alone. So providers that work in one cache directory have
one entry for a key, though their remote stores have different objects under it, and what the one
writes the other serves. A run through the first provider never changes the objects of the second.
But reads through the second are as if the run had not happened just for the keys for which the
entry, or else the object, is as before, or cannot be opened before and after; that is every key if
the directories are different.

1. `FileCache.answer_contains`, `FileCache.answer_stream`, `FileCache.answer_download`: the answers
   of a store with a cache where no fault strikes.
2. `FileCache.readsAlike_iff`: when such a store reads alike in two worlds.
3. `Provider.reads_apart_iff`: the second provider before and after a run through the first.
-/

namespace BlobVault

open Std (ExtTreeMap)
open KeyStrategy (Accepted)
open FileCache (Fits)

/-! ## Answers through a cache -/

namespace FileCache

variable {c d : FileCache} {p : PlainStore} {w v : World} {key name : String}

/-- Look-ups of the key go the same way in two worlds: in both of them its entry cannot be opened,
or they get the same. -/
def ServesAlike (c : FileCache) (p : PlainStore) (key : String) (w v : World) : Prop :=
  (c.Locked w key ∧ c.Locked v key) ∨
    (¬ c.Locked w key ∧ ¬ c.Locked v key ∧ c.serves? p v key = c.serves? p w key)

/-- A key that no entry can have is an error wherever the cache is intact. -/
theorem touch_unfit (h : key = "" ∨ ¬ Fits key) :
    ∃ e, ∀ (c : FileCache) (w : World), c.Intact w → c.touch key w = .error e w := by
  rcases h with rfl | hlong
  · exact ⟨_, fun _ _ hw => touch_empty hw⟩
  · exact ⟨_, fun _ _ hw => touch_long hw hlong⟩

/-- Keys with a range are read past the cache. -/
theorem readsAlike_annotated (hkey : ByteRange.isAnnotated key = true)
    (h : p.toStore.ReadsAlike key w v) :
    (Store.caching name c p.toStore).ReadsAlike key w v := by
  have hcontains : (Store.caching name c p.toStore).contains key = p.toStore.contains key :=
    if_pos hkey
  have hopen : (Store.caching name c p.toStore).openStream key = p.toStore.openStream key :=
    if_pos hkey
  have hread : ∀ dest, (Store.caching name c p.toStore).readInto key dest =
      p.toStore.readInto key dest := fun dest => if_pos hkey
  constructor
  · rw [hcontains]
    exact h.contains
  · have hstream : (Store.caching name c p.toStore).perform (.stream key) =
        p.toStore.perform (.stream key) := by
      simp only [Store.perform, hopen]
    rw [hstream]
    exact h.stream
  · intro dest
    unfold Store.download
    rw [hread]
    exact h.download dest

section

variable (hkey : ByteRange.splitKey key = (key, none))

include hkey

/-- Where a key cannot be looked up, every read says so. -/
theorem readsAlike_of_touch {e : BlobError} (hw : c.touch key w = .error e w)
    (hv : c.touch key v = .error e v) : (Store.caching name c p.toStore).ReadsAlike key w v := by
  have hplain := ByteRange.not_isAnnotated_of_splitKey hkey
  have hcontains : ∀ u : World, c.touch key u = .error e u →
      u.answer ((Store.caching name c p.toStore).contains key) = .error e := by
    intro u hu
    apply World.answer_of_error (v := u)
    show (if ByteRange.isAnnotated key then _ else _ : Action Bool) u = _
    rw [if_neg hplain]
    exact run_bind_error hu _
  have hstream : ∀ u : World, c.touch key u = .error e u →
      u.answer ((Store.caching name c p.toStore).perform (.stream key)) = .error e := by
    intro u hu
    have hopen : (Store.caching name c p.toStore).openStream key u = .error e u := by
      show (if ByteRange.isAnnotated key then _ else _ : Action (Option BlobStream)) u = _
      rw [if_neg hplain]
      exact run_bind_error (run_bind_error hu _) _
    exact World.answer_of_error (run_bind_error hopen _)
  have hdownload : ∀ u : World, c.touch key u = .error e u → ∀ dest,
      u.answer ((Store.caching name c p.toStore).download key dest) = .error e := by
    intro u hu dest
    have hread : (Store.caching name c p.toStore).readInto key dest u = .error e u := by
      show (if ByteRange.isAnnotated key then _ else _ : Action Bool) u = _
      rw [if_neg hplain]
      exact run_bind_error (run_bind_error hu _) _
    exact World.answer_of_error (run_bind_error hread _)
  constructor
  · rw [hcontains v hv, hcontains w hw]
  · rw [hstream v hv, hstream w hw]
  · intro dest _ _ _
    rw [hdownload v hv, hdownload w hw]

variable (hne : key ≠ "") (hfits : Fits key) (hw : c.Intact w) (hq : p.Quiet w)

section

variable (hopen : ¬ c.Locked w key)

include hne hfits hw hq hopen

theorem answer_contains : w.answer ((Store.caching name c p.toStore).contains key) =
    .ok (c.serves? p w key).isSome := by
  obtain ⟨_, u, hrun, rfl, -⟩ := ((contains_spec name hw hq.honest hkey hne hfits hopen).mono
    (fun _ _ h => h) (F := NoError) fun _ _ h => h.1 hq).exists_ok
  exact World.answer_of_ok hrun

theorem answer_stream : w.answer ((Store.caching name c p.toStore).perform (.stream key)) =
    .ok (.content ((c.serves? p w key).map fun content => (content, none))) := by
  obtain ⟨_, u, hrun, h⟩ := ((stream_spec name hw hq.honest hkey hne hfits hopen).mono
    (fun _ _ h => h) (F := NoError) fun _ _ h => h.1 hq).exists_ok
  rcases h with ⟨content, stream, rfl, hserves, -, hdrain⟩ | ⟨rfl, hserves, -⟩
  · rw [hserves]
    exact World.answer_of_ok ((run_bind_ok hrun _).trans (run_bind_ok hdrain _))
  · rw [hserves]
    exact World.answer_of_ok (run_bind_ok hrun _)

theorem answer_download {dest : LocalPath} (hdest : dest.IsOutside) (hwritable : w.Writable dest) :
    w.answer ((Store.caching name c p.toStore).download key dest) = .ok (c.serves? p w key) := by
  obtain ⟨_, u, hrun, h⟩ := ((readInto_spec name hw hq.honest hkey hne hfits hopen hdest).mono
    (fun _ _ h => h) (F := NoError) fun _ _ h => h.elim (fun h => h.1 hq)
      fun h => h.1 hwritable).exists_ok
  rcases h with ⟨rfl, content, x, hserves, ⟨es, hturns, -⟩, -, rfl⟩ | ⟨rfl, hserves, -⟩
  · have hread := fileContent_ok
      (World.read_place (hturns.writable hdest hwritable) content)
    rw [hserves]
    exact World.answer_of_ok ((run_bind_ok hrun _).trans (run_bind_ok hread _))
  · rw [hserves]
    exact World.answer_of_ok (run_bind_ok hrun _)

end

include hne hfits hw hq

/-- Where no fault strikes, a store with a cache reads alike in two worlds if and only if look-ups
go the same way in both. -/
theorem readsAlike_iff (hv : c.Intact v) (hq' : p.Quiet v) :
    (Store.caching name c p.toStore).ReadsAlike key w v ↔ c.ServesAlike p key w v := by
  have hlocked : ∀ {u : World}, c.Intact u → c.Locked u key →
      u.answer ((Store.caching name c p.toStore).contains key) =
        .error (.io .permissionDenied) := fun hu hlocked =>
    World.answer_of_error (contains_locked name p.toStore hu hkey hne hfits hlocked)
  unfold ServesAlike
  by_cases hopen : c.Locked w key
  · by_cases hopen' : c.Locked v key
    · refine iff_of_true ?_ (.inl ⟨hopen, hopen'⟩)
      exact readsAlike_of_touch hkey (touch_locked hw hfits hne hopen)
        (touch_locked hv hfits hne hopen')
    · refine iff_of_false (fun h => ?_) fun h => ?_
      · have hcontains := h.contains
        rw [hlocked hw hopen, answer_contains hkey hne hfits hv hq' hopen'] at hcontains
        exact absurd hcontains nofun
      · exact h.elim (fun h => hopen' h.2) fun h => h.1 hopen
  · by_cases hopen' : c.Locked v key
    · refine iff_of_false (fun h => ?_) fun h => ?_
      · have hcontains := h.contains
        rw [hlocked hv hopen', answer_contains hkey hne hfits hw hq hopen] at hcontains
        exact absurd hcontains nofun
      · exact h.elim (fun h => hopen h.1) fun h => h.2.1 hopen'
    · rw [or_iff_right fun h => hopen h.1, and_iff_right hopen, and_iff_right hopen']
      constructor
      · intro h
        have hstream := h.stream
        rw [answer_stream hkey hne hfits hw hq hopen,
          answer_stream hkey hne hfits hv hq' hopen'] at hstream
        have hinjective : Function.Injective fun content : Bytes =>
            (content, (none : Option BlobError)) := fun _ _ h => (Prod.mk.inj h).1
        exact Option.map_injective hinjective (Answer.content.inj (Except.ok.inj hstream))
      · intro h
        constructor
        · rw [answer_contains hkey hne hfits hw hq hopen,
            answer_contains hkey hne hfits hv hq' hopen', h]
        · rw [answer_stream hkey hne hfits hw hq hopen,
            answer_stream hkey hne hfits hv hq' hopen', h]
        · intro dest hdest hwritable hwritable'
          rw [answer_download hkey hne hfits hw hq hopen hdest hwritable,
            answer_download hkey hne hfits hv hq' hopen' hdest hwritable', h]

end

/-! ## One directory -/

theorem entry?_of_dir (h : c.dir = d.dir) (w : World) (key : String) :
    c.entry? w key = d.entry? w key := by
  unfold entry?
  rw [entries_of_dir h]

theorem Intact.of_dir (hw : d.Intact w) (h : c.dir = d.dir) : c.Intact w where
  temps := by
    have htemps := hw.temps
    unfold tempDir at htemps ⊢
    rwa [h]
  isFile := by
    rw [entries_of_dir h]
    exact hw.isFile

theorem locked_of_dir (h : c.dir = d.dir) (w : World) (key : String) :
    c.Locked w key ↔ d.Locked w key := by
  unfold Locked
  rw [entries_of_dir h]

theorem entries_of_caches (h : v.caches[c.dir]? = w.caches[c.dir]?) : c.entries v = c.entries w := by
  unfold entries
  rw [h]

/-- Look-ups are a matter of the entries and of the object. -/
theorem servesAlike_of_entries (h : c.entries v = c.entries w)
    (hheld : p.hold? v key = p.hold? w key) : c.ServesAlike p key w v := by
  have hlocked := locked_congr h key
  have hserves : c.serves? p v key = c.serves? p w key := by
    unfold serves? entry?
    rw [h, hheld]
  unfold ServesAlike
  by_cases hw : c.Locked w key
  · exact .inl ⟨hw, hlocked.2 hw⟩
  · exact .inr ⟨hw, mt hlocked.1 hw, hserves⟩

end FileCache

/-! ## Two providers -/

namespace Provider

/-- Where the remote store of the provider has the blobs of keys of a kind. -/
def Addresses (p : Provider) (keys : String → Prop) (place : Place) : Prop :=
  ∃ key, keys key ∧ place = p.base.place key

/-- The namespaces of two providers have nothing in common, for keys of a kind. -/
def Disjoint (p q : Provider) (keys : String → Prop) : Prop :=
  ∀ key, keys key → ¬ p.Addresses keys (q.base.place key)

variable {p q : Provider} {c d : FileCache} {keys : String → Prop} {w : World} {steps : List Step}

/-- Below prefixes with different segments plain keys have nothing in common. -/
theorem disjoint_of_parts {a b : String} (hp : p.remote.space = .ofText a)
    (hq : q.remote.space = .ofText b)
    (hne : ObjectPath.parts a.toList ≠ ObjectPath.parts b.toList) :
    p.Disjoint q fun key => PlainChars key.toList := by
  intro key hkey haddress
  have hw : p.remote.space.Closed := hp ▸ Namespace.closed_ofText a
  have hr : q.remote.space.Closed := hq ▸ Namespace.closed_ofText b
  refine RemoteStore.not_reaches_place hw hr ?_ hkey haddress
  rwa [hp, hq, Namespace.parts_ofText, Namespace.parts_ofText]

theorem store_of_cache (h : p.cache? = some c) :
    p.store = .caching (p.id ++ "-cache") c p.base.toStore := by
  unfold store
  rw [h]
  rfl

/-- An operation through a provider changes bytes only where its remote store has the blobs of the
keys that are named, and cache directories only in view. -/
theorem perform_confined {view : String → Prop} (hc : p.cache? = some c) (hview : view c.dir)
    (htemp : p.remote.tempDir.InView view) {operation : Operation} (hfiles : operation.InView view)
    (hnames : operation.Names keys) (w : World) :
    Ensures (p.store.perform operation) w (fun _ v => w.Confined view (p.Addresses keys) v)
      fun _ v => w.Confined view (p.Addresses keys) v := by
  rw [store_of_cache hc]
  have hstore : (Store.caching (p.id ++ "-cache") c p.base.toStore).InView view := ⟨hview, trivial⟩
  refine Store.perform_confined hstore htemp hnames hfiles (fun key hkey => ⟨key, hkey, rfl⟩) ?_ w
  rintro rfl place ⟨key, hkey, rfl⟩
  exact ⟨key, hnames key hkey, rfl⟩

/-- Such a change leaves the objects of the other provider as they are. -/
theorem hold?_of_confined {view : String → Prop} {v : World} (hapart : p.Disjoint q keys)
    (h : w.Confined view (p.Addresses keys) v) {key : String} (hkey : keys key) :
    q.hold? v key = q.hold? w key := by
  have hbytes := h.bytes _ (hapart key hkey)
  rwa [PlainStore.bytesAt?_place, PlainStore.bytesAt?_place] at hbytes

/-- What a provider writes becomes the entry of the key for every cache in the directory. -/
theorem entry?_of_write (hc : p.cache? = some c) (hdir : c.dir = d.dir)
    (hcanonical : p.remote.space.Canonical) (hw : d.Intact w) (hhonest : w.Honest)
    {request : WriteRequest} {key : String} {content : Bytes} {v : World}
    (hlasting : request.IsLasting) (hkey : Accepted key) (hfits : Fits key)
    (hplan : request.plan w = .ok (key, .ok content))
    (hwrite : p.store.write request w = .ok key v) :
    d.Intact v ∧ d.entry? v key = some content ∧
      (d.Locked v key ↔ request.opens w = false) := by
  let s : CachedStore := ⟨p.id ++ "-cache", c, p.base, hcanonical⟩
  have hintact : c.Intact w := hw.of_dir hdir
  rw [store_of_cache hc] at hwrite
  have hwritten : s.Written w key content (request.opens w) v :=
    ((CachedStore.write_planned_spec (s := s) hintact hhonest hlasting hkey hplan).ok_of_eq
      hwrite).2
  have hcached : c.entry? v key = some content := hwritten.cached?_eq hintact hfits
  have hlocked : c.Locked v key ↔ request.opens w = false := hwritten.locked_iff hintact hfits
  rw [FileCache.entry?_of_dir hdir] at hcached
  rw [FileCache.locked_of_dir hdir] at hlocked
  exact ⟨(hwritten.intact hintact).of_dir hdir.symm, hcached, hlocked⟩

/-- **Providers that share a cache directory.** Take two providers with caches whose remote stores
have nothing in common, and a run through the first. The objects of the second stay as they are.
Reads of a key through the second, once no fault is in their way, are as if the run had not happened
if and only if they go past the cache, or cannot look the key up, or the entry of the key in the
second cache, or else the object, is as before, or the entry cannot be opened before and after. If
the caches are in different directories, that is so for every key. But if they are in one, then
whatever the first writes next, on a stream or from a writable file, is there for the second too.
-/
theorem reads_apart_iff (p q : Provider) (hc : p.cache? = some c) (hd : q.cache? = some d)
    (hapart : p.Disjoint q keys) (hw : d.Intact w) (hsteps : ∀ s ∈ steps, s.operation.Names keys)
    (before after : World) (hbefore : w.Later before) (hafter : (p.store.run w steps).Later after)
    (hquiet : q.base.Quiet before) (hquiet' : q.base.Quiet after) :
    (∀ key, keys key → q.hold? after key = q.hold? before key) ∧
    (∀ key, keys key → keys (ByteRange.splitKey key).1 →
      (q.store.ReadsAlike key before after ↔
        ByteRange.isAnnotated key = true ∨ key = "" ∨ ¬ Fits key ∨
          d.ServesAlike q.base key before after)) ∧
    (c.dir ≠ d.dir → p.remote.tempDir.InView (· ≠ d.dir) →
      (∀ s ∈ steps, s.operation.InView (· ≠ d.dir)) →
      ∀ key, keys key → keys (ByteRange.splitKey key).1 → q.store.ReadsAlike key before after) ∧
    (c.dir = d.dir → p.remote.space.Canonical → after.Honest →
      ∀ request key content v, request.IsLasting → Accepted key → Fits key →
        request.opens after = true → request.plan after = .ok (key, .ok content) →
        p.store.write request after = .ok key v →
        ∀ u, v.Later u → q.base.Quiet u → u.answer (q.store.contains key) = .ok true ∧
          u.answer (q.store.perform (.stream key)) = .ok (.content (some (content, none)))) := by
  have hintact : d.Intact before := hw.of_caches hbefore.caches
  have hintact' : d.Intact after :=
    (d.lasts_intact.run hw p.store steps).of_caches hafter.caches
  have hheld : ∀ key, keys key → q.hold? after key = q.hold? before key := by
    intro key hkey
    have hrun : w.Confined (fun _ => True) (p.Addresses keys) (p.store.run w steps) :=
      Store.run_confined (fun s hs w => perform_confined hc trivial p.remote.tempDir.inView_true
        s.operation.inView_true (hsteps s hs) w) w
    exact (hafter.hold? q.base key).trans
      ((hold?_of_confined hapart hrun hkey).trans (hbefore.hold? q.base key).symm)
  have hreads : ∀ key, keys key → keys (ByteRange.splitKey key).1 →
      (q.store.ReadsAlike key before after ↔
        ByteRange.isAnnotated key = true ∨ key = "" ∨ ¬ Fits key ∨
          d.ServesAlike q.base key before after) := by
    intro key hkey hbase
    rw [store_of_cache hd]
    by_cases hannotated : ByteRange.isAnnotated key = true
    · refine iff_of_true (FileCache.readsAlike_annotated hannotated ?_) (.inl hannotated)
      refine PlainStore.readsAlike hquiet hquiet' (hheld key hkey) (hheld _ ?_)
      unfold PlainStore.target
      split
      · exact hbase
      · exact hkey
    have hsplit := ByteRange.splitKey_of_not_isAnnotated hannotated
    by_cases hunfit : key = "" ∨ ¬ Fits key
    · obtain ⟨e, he⟩ := FileCache.touch_unfit hunfit
      refine iff_of_true ?_ (.inr (hunfit.imp_right .inl))
      exact FileCache.readsAlike_of_touch hsplit (he d _ hintact) (he d _ hintact')
    · obtain ⟨hne, hfits⟩ := not_or.1 hunfit
      rw [FileCache.readsAlike_iff hsplit hne (not_not.1 hfits) hintact hquiet hintact' hquiet']
      simp [hannotated, hne, not_not.1 hfits]
  refine ⟨hheld, hreads, ?_, ?_⟩
  · intro hdir htemp hfiles key hkey hbase
    refine (hreads key hkey hbase).2 (.inr (.inr (.inr ?_)))
    have hrun : w.Confined (· ≠ d.dir) (p.Addresses keys) (p.store.run w steps) :=
      Store.run_confined (fun s hs w =>
        perform_confined hc hdir htemp (hfiles s hs) (hsteps s hs) w) w
    refine FileCache.servesAlike_of_entries (FileCache.entries_of_caches ?_) (hheld key hkey)
    rw [hafter.caches, hbefore.caches]
    exact hrun.caches d.dir fun h => h rfl
  · intro hdir hcanonical hhonest request key content v hlasting hkey hfits hopens hplan hwrite u
      hu hquietu
    obtain ⟨hintactv, hentry, hlocked⟩ := entry?_of_write hc hdir hcanonical hintact' hhonest
      hlasting hkey hfits hplan hwrite
    have hentries : d.entries u = d.entries v := FileCache.entries_of_caches (by rw [hu.caches])
    have hintactu : d.Intact u := hintactv.of_caches hu.caches
    have hopen : ¬ d.Locked u key := by
      rw [FileCache.locked_congr hentries, hlocked, hopens]
      exact nofun
    have hkept : d.entry? u key = d.entry? v key := FileCache.entry?_of_entries hentries key
    have hserves : d.serves? q.base u key = some content := by
      unfold FileCache.serves?
      rw [hkept, hentry, Option.some_or]
    rw [store_of_cache hd, FileCache.answer_contains hkey.splitKey hkey.ne_empty hfits hintactu
      hquietu hopen, FileCache.answer_stream hkey.splitKey hkey.ne_empty hfits hintactu hquietu
      hopen, hserves]
    exact ⟨rfl, rfl⟩

/-- With caches in directories of their own, what the first provider writes is not there for the
second. -/
theorem reads_apart_in_own_directories :
    let p : Provider := {
      id := "first"
      keys := .supplied
      remote := {
        name := "first"
        location := ⟨"account", "box"⟩
        container := "box"
        space := .ofText "a"
        tempDir := .scratch "temps" }
      cache? := some ⟨"one", CachingConfig.defaultLimits⟩ }
    let d : FileCache := ⟨"two", CachingConfig.defaultLimits⟩
    let q : Provider := {
      p with
      id := "second"
      remote := { p.remote with name := "second", space := .ofText "b" }
      cache? := some d }
    let w : World := (World.setCache {} "one" {}).setCache "two" {}
    let request : WriteRequest := { source := .stream [.ok [120]], key? := some "k" }
    let steps : List Step := [⟨0, .write request⟩]
    let plain : String → Prop := fun key => PlainChars key.toList
    p.Disjoint q plain ∧ d.Intact w ∧ (∀ s ∈ steps, s.operation.Names plain) ∧
      (∃ v, p.store.write request w = .ok "k" v ∧ p.store.run w steps = v ∧ v.Quiet) ∧
      q.store.ReadsAlike "k" w (p.store.run w steps) := by
  intro p d q w request steps plain
  have hapart : p.Disjoint q plain := disjoint_of_parts rfl rfl (by decide)
  have hintact : d.Intact w := FileCache.intact_of_new (World.caches_setCache_self _ _ _)
  have hone : (⟨"one", CachingConfig.defaultLimits⟩ : FileCache).Intact w := by
    apply FileCache.intact_of_new
    rw [World.caches_setCache_of_ne _ (by decide)]
    exact World.caches_setCache_self _ _ _
  have hquiet : w.Quiet := World.quiet_of_containers rfl
  have hkey : Accepted "k" := ⟨.supplied, by decide⟩
  have hsteps : ∀ s ∈ steps, s.operation.Names plain := by
    intro s hs
    obtain rfl := List.mem_singleton.1 hs
    exact WriteRequest.settles_given hkey.plainChars
  have hfiles : ∀ s ∈ steps, s.operation.InView (· ≠ d.dir) := by
    intro s hs
    obtain rfl := List.mem_singleton.1 hs
    exact nofun
  have hcanonical : p.remote.space.Canonical := by decide
  let s : CachedStore := ⟨"first-cache", ⟨"one", CachingConfig.defaultLimits⟩, p.base, hcanonical⟩
  obtain ⟨v, hwrite, hv⟩ := CachedStore.write_ok (s := s) hone hquiet (r := request) nofun hkey rfl
  have hwrite' : p.store.write request w = .ok "k" v := hwrite
  have hquietv : v.Quiet := (CachedStore.Written.follows hv).quiet hquiet
  have hrun : p.store.run w steps = v := by
    have hstep : p.store.perform (.write request) w = .ok (.stored "k") v := run_bind_ok hwrite' _
    show (p.store.step w ⟨0, .write request⟩).after = v
    unfold Store.step
    dsimp only
    rw [show ({ w with now := 0 } : World) = w from rfl, hstep]
  obtain ⟨-, -, hown, -⟩ := reads_apart_iff p q rfl rfl hapart hintact hsteps w
    (p.store.run w steps) ⟨rfl, fun _ => rfl⟩ ⟨rfl, fun _ => rfl⟩ (hquiet _) (hrun ▸ hquietv _)
  refine ⟨hapart, hintact, hsteps, ⟨v, hwrite', hrun, hquietv⟩, ?_⟩
  refine hown (by decide) trivial hfiles "k" hkey.plainChars ?_
  rw [hkey.splitKey]
  exact hkey.plainChars

/-- In the standard directory, the second provider serves what only the first was given. Its own
store has never held it. -/
theorem serves_what_other_wrote :
    let p : Provider := {
      id := "first"
      keys := .supplied
      remote := {
        name := "first"
        location := ⟨"account", "box"⟩
        container := "box"
        space := .ofText "a"
        tempDir := .scratch "temps" }
      cache? := some (CachingConfig.standard.toCache "cache") }
    let q : Provider := {
      p with
      id := "second"
      remote := { p.remote with name := "second", space := .ofText "b" } }
    let w : World := World.setCache {} "cache" {}
    p.Disjoint q (fun key => PlainChars key.toList) ∧ (CachingConfig.standard.toCache "cache").Intact w ∧
      p.keys.validate "k" = .ok () ∧ q.base.Quiet w ∧
      ∃ v, p.writeBlobWithKey "k" [.ok [120]] w = .ok "k" v ∧ q.base.Quiet v ∧
        q.hold? w "k" = none ∧ q.hold? v "k" = none ∧
        w.answer (q.store.contains "k") = .ok false ∧ v.answer (q.store.contains "k") = .ok true ∧
        v.answer (q.store.perform (.stream "k")) = .ok (.content (some ([120], none))) ∧
        ¬ q.store.ReadsAlike "k" w v := by
  intro p q w
  let c : FileCache := CachingConfig.standard.toCache "cache"
  have hapart : p.Disjoint q fun key => PlainChars key.toList :=
    disjoint_of_parts rfl rfl (by decide)
  have hintact : c.Intact w := FileCache.intact_of_new (World.caches_setCache_self _ _ _)
  have hquiet : w.Quiet := World.quiet_of_containers rfl
  have hkey : Accepted "k" := ⟨.supplied, by decide⟩
  have hcanonical : p.remote.space.Canonical := by decide
  let s : CachedStore := ⟨"first-cache", c, p.base, hcanonical⟩
  let request : WriteRequest := { source := .stream [.ok [120]], key? := some "k" }
  obtain ⟨v, hwrite, hv⟩ := CachedStore.write_ok (s := s) hintact hquiet (r := request) nofun hkey
    rfl
  have hquietv : v.Quiet := (CachedStore.Written.follows hv).quiet hquiet
  obtain ⟨hintactv, hentry, hlocked⟩ := entry?_of_write (p := p) (d := c) rfl rfl hcanonical hintact
    hquiet.honest (show request.IsLasting from nofun) hkey (by decide) rfl hwrite
  have hheld : q.hold? w "k" = none := PlainStore.hold?_of_containers rfl
  have hheld' : q.hold? v "k" = none := by
    have hnames : (Operation.write request).Names fun key => PlainChars key.toList :=
      WriteRequest.settles_given hkey.plainChars
    have hperform : p.store.perform (.write request) w = .ok (.stored "k") v :=
      run_bind_ok hwrite _
    have hchange := (perform_confined (p := p) rfl trivial p.remote.tempDir.inView_true
      (Operation.inView_true _) hnames w).ok_of_eq hperform
    exact (hold?_of_confined hapart hchange hkey.plainChars).trans hheld
  have hserves : c.serves? q.base w "k" = none := by
    have hnone : c.entry? w "k" = none :=
      FileCache.entry?_of_new (World.caches_setCache_self _ _ _) _
    unfold FileCache.serves?
    rw [hnone, Option.none_or]
    exact hheld
  have hserves' : c.serves? q.base v "k" = some [120] := by
    unfold FileCache.serves?
    rw [hentry, Option.some_or]
    rfl
  have hfits : Fits "k" := by decide
  have hopen : ¬ c.Locked w "k" :=
    FileCache.not_locked_of_miss (FileCache.entry?_of_new (World.caches_setCache_self _ _ _) _)
  have hopen' : ¬ c.Locked v "k" := fun h => absurd (hlocked.1 h) nofun
  have hvalid : p.keys.validate "k" = .ok () := by decide
  have hq : q.base.Quiet w := hquiet "box"
  have hq' : q.base.Quiet v := hquietv "box"
  refine ⟨hapart, hintact, hvalid, hq, v, ?_, hq', hheld, hheld', ?_, ?_, ?_, ?_⟩
  · unfold writeBlobWithKey
    rw [hvalid]
    exact (run_bind_ok (show check (.ok ()) w = .ok () w from rfl) _).trans hwrite
  · rw [store_of_cache (p := q) rfl, FileCache.answer_contains hkey.splitKey hkey.ne_empty hfits
      hintact hq hopen, hserves]
    rfl
  · rw [store_of_cache (p := q) rfl, FileCache.answer_contains hkey.splitKey hkey.ne_empty hfits
      hintactv hq' hopen', hserves']
    rfl
  · rw [store_of_cache (p := q) rfl, FileCache.answer_stream hkey.splitKey hkey.ne_empty hfits
      hintactv hq' hopen', hserves']
    rfl
  · rw [store_of_cache (p := q) rfl, FileCache.readsAlike_iff hkey.splitKey hkey.ne_empty hfits
      hintact hq hintactv hq']
    rintro (⟨hlost, -⟩ | ⟨-, -, hsame⟩)
    · exact hopen hlost
    · rw [hserves, hserves'] at hsame
      exact absurd hsame nofun

end Provider

end BlobVault
