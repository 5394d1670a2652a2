import BlobVault.Proofs.Caching.Streams

/-!
# What operations make of a cache

A caching store touches at most one entry in an operation: it marks one that it finds as used now,
or it makes one and evicts others for it. All else in the directory stays as it is, but for what is
deleted or evicted. That holds in any state of the directory, whatever requests fail, and in front
of any store that works elsewhere.

1. `FileCache.Elsewhere`: changes that concern no entry of the cache.
2. `Store.readInto_elsewhere`, `Store.write_elsewhere` and the like, by induction on the caches:
   what stores do that have their caches in other directories.
3. `FileCache.UsedBy`: what an operation that touches an entry may do to all of them.
4. `FileCache.touch_uses`, `FileCache.install_uses`, `FileCache.fetch_uses`,
   `FileCache.writeKeeping_uses`: the operations of a cache.
5. `FileCache.touchOf`, `FileCache.perform_usedBy`: which entry a step touches, and what it does.
-/

namespace BlobVault

open Std (ExtTreeMap)
open FileCache (Thins entryName entries_eq)

/-! ## Changes elsewhere -/

/-- Time has passed at most, and the cache has the entries that it had. -/
structure FileCache.Elsewhere (c : FileCache) (w v : World) : Prop where
  now : w.now ≤ v.now
  entries : c.entries v = c.entries w

namespace FileCache

variable {c d : FileCache} {w v u : World}

namespace Elsewhere

theorem refl (c : FileCache) (w : World) : c.Elsewhere w w := ⟨le_refl _, rfl⟩

theorem of_still (h : w.Still v) : c.Elsewhere w v := ⟨h.now.ge, h.entries c⟩

theorem trans (h : c.Elsewhere w v) (h' : c.Elsewhere v u) : c.Elsewhere w u :=
  ⟨h.now.trans h'.now, h'.entries.trans h.entries⟩

end Elsewhere

theorem persists_elsewhere (c : FileCache) : Persists c.Elsewhere := ⟨.of_still, .trans⟩

/-- What happens to the entries of a cache in another directory. -/
theorem elsewhere_refill (hdir : c.dir ≠ d.dir) (w : World) {now : Instant} (hnow : w.now ≤ now)
    (es : CacheEntries) : c.Elsewhere w (d.refill w now es) := by
  refine ⟨?_, ?_⟩
  · rw [refill_rest]
    exact hnow
  · unfold entries
    rw [caches_refill_of_ne w now es (Ne.symm hdir)]

theorem elsewhere_setCache (hdir : c.dir ≠ d.dir) (w : World) (e : CacheDir) :
    c.Elsewhere w (w.setCache d.dir e) := by
  refine ⟨le_refl _, ?_⟩
  unfold entries
  rw [World.caches_setCache_of_ne _ (Ne.symm hdir)]

section

variable (hdir : c.dir ≠ d.dir)

include hdir

theorem touch_elsewhere (k : String) : Within c.Elsewhere (d.touch k) := by
  refine fun w => (d.touch_spec k w).mono ?_ fun _ _ h => h ▸ .refl c _
  rintro _ v (⟨-, rfl, -⟩ | ⟨-, -, _, _, -, rfl⟩)
  · exact .refl c v
  · exact elsewhere_refill hdir w (Int.le_add_one (le_refl _)) _

theorem evictExcept_elsewhere (keep? : Option String) :
    Within c.Elsewhere (d.evictExcept keep?) := by
  refine fun w => (d.evictExcept_leaves keep? w).mono ?_ fun _ _ h => h ▸ .refl c _
  rintro _ v ⟨hv, -⟩
  rw [hv]
  exact elsewhere_refill hdir w (le_refl _) _

theorem install_elsewhere (k : String) (path : LocalPath) :
    Within c.Elsewhere (d.install k path) := by
  have hR := persists_elsewhere c
  unfold install
  cases path with
  | temp t serial =>
    have hpublish : Within c.Elsewhere (d.publish k t serial) := by
      refine fun w => (d.publish_spec k t serial w).mono ?_ fun _ _ h => h ▸ .refl c _
      rintro _ v ⟨content, -, -, rfl⟩
      exact (elsewhere_refill hdir w (Int.le_add_one (le_refl _)) _).trans
        (.of_still (World.still_dropTemp _ t serial))
    refine hpublish.bind hR fun _ => .bind hR (fun w => ?_) fun _ => .pure hR _
    exact (evictExcept_elsewhere hdir _ w).attempt
  | caller _ => exact .throw hR _
  | detached => exact .throw hR _
  | entry _ _ => exact .throw hR _

theorem insertFile_elsewhere (k : String) (source : LocalPath) :
    Within c.Elsewhere (d.insertFile k source) := by
  have hR := persists_elsewhere c
  rw [d.insertFile_eq]
  exact .withTemp hR fun serial =>
    (Within.copyFile hR source (LocalPath.temp_ne_entry _ serial)).bind hR fun _ =>
      install_elsewhere hdir k _

theorem fetch_elsewhere {download : LocalPath → Action Bool}
    (hdownload : ∀ t serial, Within c.Elsewhere (download (.temp t serial))) (k : String) :
    Within c.Elsewhere (d.fetch k download) := by
  have hR := persists_elsewhere c
  rw [d.fetch_eq]
  refine (touch_elsewhere hdir k).bind hR fun path? => ?_
  cases path? with
  | some path => exact .pure hR _
  | none =>
    refine .withTemp hR fun serial => (hdownload _ serial).bind hR fun found => ?_
    cases found with
    | false => exact .pure hR _
    | true => exact (install_elsewhere hdir k _).map hR _

theorem remove_elsewhere (k : String) : Within c.Elsewhere (d.remove k) := by
  intro w
  unfold remove
  refine Ensures.bind_ok (a := w) (t := w) rfl ?_
  cases w.caches[d.dir]? with
  | none => exact Ensures.pure (.refl c w)
  | some e =>
    dsimp only
    split
    · exact Ensures.set (elsewhere_setCache hdir w _)
    · exact Ensures.pure (.refl c w)

theorem clear_elsewhere : Within c.Elsewhere d.clear := by
  intro w
  unfold clear
  refine Ensures.bind_ok (a := w) (t := w) rfl ?_
  cases w.caches[d.dir]? with
  | none => exact Ensures.throw (.refl c w)
  | some e => exact Ensures.set (elsewhere_setCache hdir w _)

end

end FileCache

namespace Within

variable {α : Type} {R : World → World → Prop}

theorem fileSize_local (path : LocalPath) :
    Within World.KeepsLocal (BlobVault.fileSize path) := by
  intro w
  unfold Ensures BlobVault.fileSize
  dsimp only
  rw [fileContent_eq]
  cases w.read path with
  | ok content => exact rfl
  | error e => cases e <;> exact rfl

theorem fileSize (path : LocalPath) : Within World.Still (BlobVault.fileSize path) :=
  (fileSize_local path).mono .of_keepsLocal

theorem settle (hR : Chains R) (r : WriteRequest) : Within R r.settle := by
  unfold WriteRequest.settle
  split
  · exact pure hR _
  · exact throw hR _

section

variable {path : LocalPath} (hread : Within R (BlobVault.fileContent path))

include hread

/-- Appending takes nothing but reading and writing the file. -/
theorem append (hR : Chains R) (hput : ∀ content, Within R (BlobVault.putFile path content))
    (chunks : ContentStream) (r : WriteRequest) (length : Nat) :
    Within R (WriteRequest.append path r length chunks) := by
  induction chunks generalizing r length with
  | nil => exact (settle hR _).bind hR fun _ => pure hR _
  | cons chunk chunks ih =>
    cases chunk with
    | error e => exact throw hR _
    | ok chunk => exact hread.bind hR fun held => (hput _).bind hR fun _ => ih _ _

theorem transfer (hR : Chains R) (hput : ∀ content, Within R (BlobVault.putFile path content))
    (r : WriteRequest) (chunks : ContentStream) : Within R (r.transfer chunks path) :=
  (hput _).bind hR fun _ => append hread hR hput chunks r 0

theorem inspect (hR : Chains R) (hsize : Within R (BlobVault.fileSize path)) (r : WriteRequest) :
    Within R (r.inspect path) := by
  unfold WriteRequest.inspect WriteRequest.observeFile
  split
  · exact hread.bind hR fun content => (settle hR _).bind hR fun _ => pure hR _
  · exact hsize.bind hR fun length => (settle hR _).bind hR fun _ => pure hR _

end

end Within

/-! ## Stores in front of which a cache is -/

open FileCache (persists_elsewhere)

namespace Store

variable {c : FileCache} {store : Store}

theorem readInto_elsewhere (h : store.InView (c.dir ≠ ·)) (k : String) {dest : LocalPath}
    (hdest : ∀ dir name, dest ≠ .entry dir name) : Within c.Elsewhere (store.readInto k dest) := by
  have hR := persists_elsewhere c
  induction store generalizing dest with
  | memory m => exact (Within.readInto (.memory m) k hdest).of_still hR
  | remote r => exact (Within.readInto (.remote r) k hdest).of_still hR
  | caching name d inner ih =>
    exact .caching_readInto hR (fun path => .copyFile hR path hdest) (ih h.2 hdest)
      (FileCache.fetch_elsewhere h.1 (fun _ _ => ih h.2 nofun) k)

theorem fetch_elsewhere (h : store.InView (c.dir ≠ ·)) {d : FileCache} (hdir : c.dir ≠ d.dir)
    (k : String) : Within c.Elsewhere (d.fetch k (store.readInto k)) :=
  FileCache.fetch_elsewhere hdir (fun _ _ => readInto_elsewhere h k nofun) k

theorem contains_elsewhere (h : store.InView (c.dir ≠ ·)) (k : String) :
    Within c.Elsewhere (store.contains k) := by
  have hR := persists_elsewhere c
  induction store with
  | memory m => exact (Within.contains (.memory m) k).of_still hR
  | remote r => exact (Within.contains (.remote r) k).of_still hR
  | caching name d inner ih =>
    exact .caching_contains hR (ih h.2) (FileCache.touch_elsewhere h.1 k)

theorem openStream_elsewhere (h : store.InView (c.dir ≠ ·)) (k : String) :
    Within c.Elsewhere (store.openStream k) := by
  have hR := persists_elsewhere c
  induction store with
  | memory m => exact (Within.openStream (.memory m) k).of_still hR
  | remote r => exact (Within.openStream (.remote r) k).of_still hR
  | caching name d inner ih =>
    exact .caching_openStream hR (ih h.2) (fetch_elsewhere h.2 h.1 k)

theorem delete_elsewhere (h : store.InView (c.dir ≠ ·)) (k : String) :
    Within c.Elsewhere (store.delete k) := by
  have hR := persists_elsewhere c
  induction store with
  | memory m => exact (Within.delete (.memory m) k).of_still hR
  | remote r => exact (Within.delete (.remote r) k).of_still hR
  | caching name d inner ih =>
    exact (FileCache.remove_elsewhere h.1 k).bind hR fun _ => ih h.2

theorem clear_elsewhere (h : store.InView (c.dir ≠ ·)) : Within c.Elsewhere store.clear := by
  have hR := persists_elsewhere c
  have hshares : ∀ {w v : World}, w.Shares v → c.Elsewhere w v := fun h => .of_still (.of_shares h)
  have hplain : ∀ p : PlainStore, Within c.Elsewhere p.toStore.clear := fun p w =>
    (p.clear_spec w).mono (fun _ _ h => hshares h) fun _ _ h => hshares h
  induction store with
  | memory m => exact hplain (.memory m)
  | remote r => exact hplain (.remote r)
  | caching name d inner ih =>
    exact (FileCache.clear_elsewhere h.1).bind hR fun _ => ih h.2

/-- A file is written under a given key. -/
theorem write_elsewhere (h : store.InView (c.dir ≠ ·)) (file : LocalPath) (key : String) :
    Within c.Elsewhere (store.write { source := .file file, key? := some key }) := by
  have hR := persists_elsewhere c
  have hshares : ∀ {w v : World}, w.Shares v → c.Elsewhere w v := fun h => .of_still (.of_shares h)
  have hplain : ∀ p : PlainStore, ∀ file key,
      Within c.Elsewhere (p.toStore.write { source := .file file, key? := some key }) :=
    fun p file key w => (p.write_given_shares key file w).mono (fun _ _ h => hshares h.2)
      fun _ _ h => hshares h
  induction store generalizing file key with
  | memory m => exact hplain (.memory m) file key
  | remote r => exact hplain (.remote r) file key
  | caching name d inner ih =>
    rw [write_caching]
    refine .bind hR (.inspect ((Within.fileContent file).of_still hR) hR
      ((Within.fileSize file).of_still hR) _) fun ⟨key, length⟩ => ?_
    refine (ih h.2 file key).bind hR fun key' => .bind hR (fun w => ?_) fun _ => .pure hR _
    exact (FileCache.insertFile_elsewhere h.1 key' file w).attempt

end Store

/-! ## Touches -/

/-- How an operation used the entry of a key: it found one, or it made one. -/
inductive Touch
  | hit (key : String)
  | commit (key : String)
  deriving DecidableEq, Repr

/-- The key whose entry was used. -/
def Touch.key : Touch → String
  | .hit key => key
  | .commit key => key

namespace FileCache

/-- What becomes of the entries of a cache in an operation that touches one of them, or none. Names
may be dropped. -/
structure UsedBy (c : FileCache) (touch? : Option Touch) (dropped : String → Prop) (w v : World) :
    Prop where
  now : w.now ≤ v.now
  touched : ∀ touch, touch? = some touch → ∃ content used writable, w.now ≤ used ∧ used < v.now ∧
    (c.entries v)[entryName touch.key]? = some (.file content used writable)
  others : ∀ (name : String) (node : CacheNode),
    (∀ touch, touch? = some touch → entryName touch.key ≠ name) →
      (c.entries v)[name]? = some node → (c.entries w)[name]? = some node
  evicted : ∀ (name : String) (node : CacheNode), (c.entries w)[name]? = some node →
    (c.entries v)[name]? = none → ¬ dropped name →
      ∃ content used writable moment, node = .file content used writable ∧ w.now ≤ moment ∧
        moment ≤ v.now ∧ c.limits.minAge ≤ max 0 (moment - used) ∧
        (∀ key, touch? ≠ some (.hit key)) ∧
        ∀ (other : String) (content' : Bytes) (used' : Instant) (writable' : Bool),
          (c.entries v)[other]? = some (.file content' used' writable') →
            (∀ touch, touch? = some touch → entryName touch.key ≠ other) → used ≤ used'

/-- No name is dropped. -/
abbrev NoneDropped : String → Prop := fun _ => False

variable {c : FileCache} {w v u : World} {touch? : Option Touch} {dropped : String → Prop}

namespace UsedBy

/-- What removes entries of some names only, and touches none. -/
theorem of_thins (hnow : w.now ≤ v.now) (hthins : Thins (c.entries w) (c.entries v))
    (hdropped : ∀ (name : String) (node : CacheNode), (c.entries w)[name]? = some node →
      (c.entries v)[name]? = none → dropped name) :
    c.UsedBy none dropped w v where
  now := hnow
  touched _ h := absurd h nofun
  others name node _ hnode := hthins name node hnode
  evicted name node hnode hgone hdrop := absurd (hdropped name node hnode hgone) hdrop

theorem of_elsewhere (h : c.Elsewhere w v) : c.UsedBy none dropped w v := by
  refine of_thins h.now (fun name node hnode => h.entries ▸ hnode) fun name node hnode hgone => ?_
  rw [h.entries, hnode] at hgone
  exact absurd hgone nofun

/-- What goes on elsewhere before and after an operation does not matter. -/
theorem between {x y : World} (h : c.UsedBy touch? dropped w v) (hx : c.Elsewhere x w)
    (hy : c.Elsewhere v y) : c.UsedBy touch? dropped x y where
  now := (hx.now.trans h.now).trans hy.now
  touched touch htouch := by
    obtain ⟨content, used, writable, hstart, hend, hentry⟩ := h.touched touch htouch
    exact ⟨content, used, writable, hx.now.trans hstart, hend.trans_le hy.now,
      hy.entries ▸ hentry⟩
  others := by
    rw [hy.entries, ← hx.entries]
    exact h.others
  evicted := by
    rw [hy.entries, ← hx.entries]
    intro name node hnode hgone hdrop
    obtain ⟨content, used, writable, moment, hfile, hstart, hend, hrest⟩ :=
      h.evicted name node hnode hgone hdrop
    exact ⟨content, used, writable, moment, hfile, hx.now.trans hstart, hend.trans hy.now, hrest⟩

theorem after (h : c.UsedBy touch? dropped w v) (hx : c.Elsewhere u w) :
    c.UsedBy touch? dropped u v := h.between hx (.refl c v)

theorem before (h : c.UsedBy touch? dropped w v) (hy : c.Elsewhere v u) :
    c.UsedBy touch? dropped w u := h.between (.refl c w) hy

end UsedBy

/-- An eviction that keeps the entry that was made goes with making it. -/
theorem UsedBy.evicts (h : c.UsedBy touch? dropped w v)
    (hcommit : ∀ key, touch? ≠ some (.hit key)) (hnow : u.now = v.now)
    (hevicts : c.limits.Evicts v.now (touch?.map fun touch => entryName touch.key) (c.entries v)
      (c.entries u)) : c.UsedBy touch? dropped w u where
  now := hnow ▸ h.now
  touched touch htouch := by
    obtain ⟨content, used, writable, hstart, hend, hentry⟩ := h.touched touch htouch
    refine ⟨content, used, writable, hstart, hnow ▸ hend, ?_⟩
    rw [hevicts.keeps _ (by rw [htouch]; rfl), hentry]
  others name node hname hnode := h.others name node hname (hevicts.thins name node hnode)
  evicted name node hnode hgone hdrop := by
    cases hleft : (c.entries v)[name]? with
    | none =>
      obtain ⟨content, used, writable, moment, hfile, hstart, hend, hage, -, holdest⟩ :=
        h.evicted name node hnode hleft hdrop
      exact ⟨content, used, writable, moment, hfile, hstart, hnow ▸ hend, hage, hcommit,
        fun other content' used' writable' hother =>
          holdest other content' used' writable' (hevicts.thins _ _ hother)⟩
    | some left =>
      have hname : ∀ touch, touch? = some touch → entryName touch.key ≠ name := by
        rintro touch htouch rfl
        rw [hevicts.keeps _ (by rw [htouch]; rfl), hleft] at hgone
        exact absurd hgone nofun
      obtain rfl : left = node :=
        Option.some.inj ((h.others name left hname hleft).symm.trans hnode)
      obtain ⟨content, used, writable, hfile, hage, holdest⟩ :=
        hevicts.oldest name left hleft hgone
      refine ⟨content, used, writable, v.now, hfile, h.now, hnow.ge, hage, hcommit, ?_⟩
      intro other content' used' writable' hother hfree
      refine holdest other content' used' writable' hother fun hkeep => ?_
      obtain ⟨touch, htouch, rfl⟩ := Option.map_eq_some_iff.1 hkeep
      exact hfree touch htouch rfl

/-! ## The operations of a cache -/

/-- An entry that is put in place now is touched, and nothing else happens. -/
theorem usedBy_insert {d : CacheDir} (hd : w.caches[c.dir]? = some d) (touch : Touch)
    (content : Bytes) (writable : Bool) :
    c.UsedBy (some touch) dropped w (c.refill w (w.now + 1)
      ((c.entries w).insert (entryName touch.key) (.file content w.now writable))) where
  now := by
    rw [refill_rest]
    exact Int.le_add_one (le_refl _)
  touched := by
    intro other hother
    obtain rfl := Option.some.inj hother
    refine ⟨content, w.now, writable, le_refl _, ?_, ?_⟩
    · rw [refill_rest]
      exact Int.lt_add_one_of_le (le_refl _)
    · rw [entries_refill hd]
      exact ExtTreeMap.getElem?_insert_self
  others name node hname hnode := by
    rwa [entries_refill hd, getElem?_insert_of_ne (hname _ rfl)] at hnode
  evicted name node hnode hgone := by
    rw [entries_refill hd, ExtTreeMap.getElem?_insert] at hgone
    split at hgone
    · exact absurd hgone nofun
    · rw [hnode] at hgone
      exact absurd hgone nofun

/-- A look-up touches the entry that it finds. -/
theorem touch_uses (c : FileCache) (k : String) (w : World) :
    Ensures (c.touch k) w
      (fun path? v => (path? = none ∧ v = w) ∨
        (path?.isSome ∧ c.UsedBy (some (.hit k)) NoneDropped w v))
      fun _ v => v = w := by
  refine (c.touch_spec k w).mono ?_ fun _ _ h => h
  rintro _ v (⟨rfl, rfl, -⟩ | ⟨rfl, ⟨d, hd⟩, content, t, -, rfl⟩)
  · exact .inl ⟨rfl, rfl⟩
  · exact .inr ⟨rfl, usedBy_insert hd (.hit k) content true⟩

/-- An eviction on its own touches no entry. -/
theorem evict_uses (c : FileCache) : Within (c.UsedBy none NoneDropped) c.evict := by
  intro w
  have hidle : c.UsedBy none NoneDropped w w := .of_elsewhere (.refl c w)
  refine (c.evictExcept_leaves none w).mono ?_ fun _ _ h => h ▸ hidle
  rintro _ v ⟨hv, hevicts⟩
  exact hidle.evicts nofun (by rw [hv, refill_rest]) hevicts

/-- Dropping the entry of a key. -/
theorem remove_uses (c : FileCache) (k : String) :
    Within (c.UsedBy none (· = entryName k)) (c.remove k) := by
  intro w
  have hidle : c.UsedBy none (· = entryName k) w w := .of_elsewhere (.refl c w)
  unfold remove
  refine Ensures.bind_ok (a := w) (t := w) rfl ?_
  cases hd : w.caches[c.dir]? with
  | none => exact Ensures.pure hidle
  | some d =>
    dsimp only
    split
    swap
    · exact Ensures.pure hidle
    have hentries : ∀ name : String,
        (c.entries (w.setCache c.dir (d.eraseAll [entryName k])))[name]? =
          if name ∈ [entryName k] then none else (c.entries w)[name]? := fun name => by
      rw [entries_eq (World.caches_setCache_self w _ _), d.getElem?_eraseAll, entries_eq hd]
    refine Ensures.set (.of_thins (le_refl _) (fun name node hnode => ?_)
      fun name node hnode hgone => ?_)
    · rw [hentries] at hnode
      split at hnode
      · exact absurd hnode nofun
      · exact hnode
    · rw [hentries] at hgone
      split at hgone
      · exact List.mem_singleton.1 ‹_›
      · rw [hnode] at hgone
        exact absurd hgone nofun

/-- Dropping all entries. -/
theorem clear_uses (c : FileCache) : Within (c.UsedBy none fun _ => True) c.clear := by
  intro w
  unfold clear
  refine Ensures.bind_ok (a := w) (t := w) rfl ?_
  cases hd : w.caches[c.dir]? with
  | none => exact Ensures.throw (.of_elsewhere (.refl c w))
  | some d =>
    refine Ensures.set (.of_thins (le_refl _) (fun name node hnode => ?_) fun _ _ _ _ => trivial)
    rw [entries_eq (World.caches_setCache_self w _ _)] at hnode
    unfold CacheDir.cleared at hnode
    rw [d.getElem?_eraseAll] at hnode
    split at hnode
    · exact absurd hnode nofun
    · rwa [entries_eq hd]

/-! ## What an action touches -/

/-- The action touches the entry that its result says, or fails and touches none. -/
def Uses {α : Type} (c : FileCache) (touches : α → Option Touch) (x : Action α) : Prop :=
  ∀ w, Ensures x w (fun a v => c.UsedBy (touches a) NoneDropped w v)
    fun _ v => c.UsedBy none NoneDropped w v

namespace Uses

variable {α β : Type} {touches : α → Option Touch} {touches' : β → Option Touch} {x : Action α}

theorem pure {a : α} (h : touches a = none) : c.Uses touches (Pure.pure a : Action α) := fun w =>
  Ensures.pure (h ▸ .of_elsewhere (.refl c w))

/-- What happens elsewhere before an entry is touched does not matter. -/
theorem bind {f : α → Action β} (hx : Within c.Elsewhere x) (hf : ∀ a, c.Uses touches' (f a)) :
    c.Uses touches' (x >>= f) := by
  intro w
  refine Ensures.bind ((hx w).mono (fun _ _ h => h) fun _ _ h => .of_elsewhere h) fun a v hv => ?_
  exact (hf a v).mono (fun _ _ h => h.after hv) fun _ _ h => h.after hv

theorem map (hx : c.Uses touches x) {f : α → β} (hf : ∀ a, touches' (f a) = touches a) :
    c.Uses touches' (do return f (← x)) := fun w =>
  Ensures.map (hx w) fun a _ h => (hf a).symm ▸ h

/-- An action that may fail, with its failure as a result. -/
theorem outcome {touch : Touch} (hx : c.Uses (fun _ => some touch) x) :
    c.Uses (fun result => match result with | .ok _ => some touch | .error _ => none)
      (BlobVault.outcome x) := by
  intro w
  cases hrun : x w with
  | ok a v => exact Ensures.of_ok (outcome_ok hrun) ((hx w).ok_of_eq hrun)
  | error e v => exact Ensures.of_ok (outcome_error hrun) ((hx w).error_of_eq hrun)

theorem withTemp {dir : TempDir} {use : LocalPath → Action α}
    (huse : ∀ serial, c.Uses touches (use (.temp dir serial))) :
    c.Uses touches (BlobVault.withTemp dir use) := by
  intro w
  refine withTemp_still (fun _ => .of_elsewhere (.refl c w)) fun serial v hv _ _ => ?_
  exact (huse serial v).mono
    (fun _ x h => h.between (.of_still hv) (.of_still (x.still_dropTemp dir serial)))
    fun _ x h => h.between (.of_still hv) (.of_still (x.still_dropTemp dir serial))

/-- Bringing content into a local file is no concern of entries. -/
theorem withLocal {r : WriteRequest} {dir : TempDir} {use : LocalContent → Action α}
    (huse : ∀ content, c.Uses touches (use content)) : c.Uses touches (r.withLocal dir use) := by
  have hR := persists_elsewhere c
  unfold WriteRequest.withLocal
  split
  · refine withTemp fun serial => ?_
    have hput : ∀ bytes, Within c.Elsewhere (putFile (.temp dir serial) bytes) := fun bytes =>
      .of_still hR (.putFile (LocalPath.temp_ne_entry dir serial) bytes)
    exact bind (.transfer ((Within.fileContent _).of_still hR) hR hput r _) fun _ => huse _
  · exact bind (.inspect ((Within.fileContent _).of_still hR) hR ((Within.fileSize _).of_still hR) r)
      fun _ => huse _

end Uses

/-- A temporary file becomes the entry of a key, for which others may be evicted. -/
theorem install_uses (c : FileCache) (k : String) (path : LocalPath) :
    c.Uses (fun _ => some (.commit k)) (c.install k path) := by
  intro w
  have hidle : c.UsedBy none NoneDropped w w := .of_elsewhere (.refl c w)
  unfold install
  cases path with
  | caller _ => exact Ensures.throw hidle
  | detached => exact Ensures.throw hidle
  | entry _ _ => exact Ensures.throw hidle
  | temp t serial =>
    refine Ensures.bind ((c.publish_spec k t serial w).mono (fun _ _ h => h)
      fun _ _ h => h ▸ hidle) ?_
    rintro _ u ⟨content, -, ⟨d, hd⟩, rfl⟩
    -- the world once the entry is made
    have hmade : c.UsedBy (some (.commit k)) NoneDropped w ((c.refill w (w.now + 1)
        ((c.entries w).insert (entryName k)
          (.file content w.now (!w.isReadOnly (.temp t serial))))).dropTemp t serial) :=
      (usedBy_insert hd (.commit k) content _).before (.of_still (World.still_dropTemp _ t serial))
    generalize World.dropTemp _ t serial = x at hmade ⊢
    have hevict : Ensures (c.evictExcept (some (entryName k))) x
        (fun _ v => c.UsedBy (some (.commit k)) NoneDropped w v)
        fun _ v => c.UsedBy (some (.commit k)) NoneDropped w v := by
      refine (c.evictExcept_leaves _ x).mono ?_ fun _ _ h => h ▸ hmade
      rintro _ v ⟨hv, hevicts⟩
      exact hmade.evicts nofun (by rw [hv, refill_rest]) hevicts
    exact Ensures.bind hevict.attempt fun _ v hv => Ensures.pure hv

/-- A copy of a local file becomes the entry of a key. -/
theorem insertFile_uses (c : FileCache) (k : String) (source : LocalPath) :
    c.Uses (fun _ => some (.commit k)) (c.insertFile k source) := by
  have hR := persists_elsewhere c
  rw [c.insertFile_eq]
  exact .withTemp fun serial =>
    .bind (Within.copyFile hR source (LocalPath.temp_ne_entry _ serial)) fun _ => c.install_uses k _

/-! ## Looking up and writing -/

/-- What looking a key up touches: the entry that it finds, or the one that it makes of what the
store behind the cache has. -/
def lookUp (c : FileCache) (inner : Store) (key : String) (w : World) : Option Touch :=
  match c.touch key w with
  | .ok (some _) _ => some (.hit key)
  | .ok none _ =>
    match c.fetch key (inner.readInto key) w with
    | .ok (some _) _ => some (.commit key)
    | _ => none
  | .error _ _ => none

/-- What a write touches: the entry that it makes of the content. -/
def kept : String × Except BlobError LocalPath → Option Touch
  | (key, .ok _) => some (.commit key)
  | (_, .error _) => none

variable {inner : Store}

theorem fetch_uses (hinner : inner.InView (c.dir ≠ ·)) (k : String) (w : World) :
    Ensures (c.fetch k (inner.readInto k)) w
      (fun _ v => c.UsedBy (c.lookUp inner k w) NoneDropped w v)
      fun _ v => c.UsedBy (c.lookUp inner k w) NoneDropped w v := by
  have htouch := c.touch_uses k w
  have hR := persists_elsewhere c
  unfold lookUp
  cases hrun : c.touch k w with
  | error e v =>
    obtain rfl := htouch.error_of_eq hrun
    exact Ensures.of_error (run_bind_error hrun _) (.of_elsewhere (.refl c v))
  | ok path? v =>
    rcases htouch.ok_of_eq hrun with ⟨rfl, rfl⟩ | ⟨hsome, hv⟩
    swap
    · obtain ⟨path, rfl⟩ := Option.isSome_iff_exists.1 hsome
      exact Ensures.of_ok (run_bind_ok hrun _) hv
    -- nothing is found, so all depends on how the download goes
    have hdownload : c.Uses (fun path? => path?.map fun _ => .commit k)
        (withTemp c.tempDir fun temp => do
          if ← inner.readInto k temp then return some (← c.install k temp) else return none) := by
      refine .withTemp fun serial => .bind (Store.readInto_elsewhere hinner k nofun) fun found => ?_
      cases found with
      | false => exact .pure rfl
      | true => exact (c.install_uses k _).map fun _ => rfl
    have hfetch : c.fetch k (inner.readInto k) v = _ :=
      (congrFun (c.fetch_eq k _) v).trans (run_bind_ok hrun _)
    dsimp only at hfetch ⊢
    cases hends : c.fetch k (inner.readInto k) v with
    | ok path? x =>
      have hx := (hdownload v).ok_of_eq (hfetch.symm.trans hends)
      refine Ensures.of_ok hends ?_
      cases path? with
      | none => exact hx
      | some path => exact hx
    | error e x =>
      exact Ensures.of_error hends ((hdownload v).error_of_eq (hfetch.symm.trans hends))

theorem writeKeeping_uses (hinner : inner.InView (c.dir ≠ ·)) (r : WriteRequest) :
    c.Uses kept (c.writeKeeping inner r) := by
  rw [c.writeKeeping_eq]
  refine .withLocal fun content => .bind (Store.write_elsewhere hinner _ _) fun key => ?_
  have hkeep : c.Uses (fun _ => some (.commit key)) (if content.temporary then
      c.install key content.path else c.insertFile key content.path) := by
    split
    · exact c.install_uses key _
    · exact c.insertFile_uses key _
  refine hkeep.outcome.map fun result => ?_
  cases result <;> rfl

end FileCache

/-! ## Steps -/

/-- The names of entries that an operation drops. -/
def Operation.drops : Operation → String → Prop
  | .delete key, name => name = entryName key
  | .clear, _ => True
  | _, _ => False

/-- The operation is one on a store of its own, and what it fills is a file of the caller's. -/
def Operation.IsDirect : Operation → Prop
  | .copy _ _ _ _ => False
  | .read _ dest => dest.IsOutside
  | _ => True

/-- The operation reads a key with a range, or asks whether it exists. -/
def Operation.IsRanged : Operation → Prop
  | .read key _ | .stream key | .file key | .contains key => ByteRange.isAnnotated key = true
  | _ => False

namespace FileCache

/-- What an operation through a cache touches. -/
def touchOf (c : FileCache) (inner : Store) (w : World) : Operation → Option Touch
  | .write request =>
    match c.writeKeeping inner request w with
    | .ok result _ => kept result
    | .error _ _ => none
  | .read key _ | .stream key | .file key =>
    if ByteRange.isAnnotated key then none else c.lookUp inner key w
  | .contains key =>
    if ByteRange.isAnnotated key then none
    else
      match c.touch key w with
      | .ok (some _) _ => some (.hit key)
      | _ => none
  | .delete _ | .copy _ _ _ _ | .clear | .evict => none

variable {c : FileCache} {inner : Store} {w : World} (name : String)

theorem touchOf_of_isRanged {operation : Operation} (h : operation.IsRanged) :
    c.touchOf inner w operation = none := by
  cases operation with
  | read key dest => exact if_pos h
  | stream key => exact if_pos h
  | file key => exact if_pos h
  | contains key => exact if_pos h
  | _ => exact h.elim

/-- Keys with a range go past the cache. -/
theorem perform_elsewhere (hinner : inner.InView (c.dir ≠ ·)) {operation : Operation}
    (hdirect : operation.IsDirect) (hranged : operation.IsRanged) :
    Within c.Elsewhere ((Store.caching name c inner).perform operation) := by
  have hR := persists_elsewhere c
  have hpast : ∀ {α : Type} {key : String} {x y : Action α}, ByteRange.isAnnotated key = true →
      Within c.Elsewhere x → Within c.Elsewhere (if ByteRange.isAnnotated key then x else y) :=
    fun hkey hx => by rwa [if_pos hkey]
  cases operation with
  | read key dest =>
    refine .map hR (hpast hranged (Store.readInto_elsewhere hinner key ?_)) _
    rintro dir file rfl
    exact hdirect
  | stream key =>
    exact .perform_stream hR (hpast hranged (Store.openStream_elsewhere hinner key))
  | file key =>
    refine .perform_file hR ?_
    rw [Store.localFile_caching]
    exact hpast hranged (.pure hR _)
  | contains key => exact .map hR (hpast hranged (Store.contains_elsewhere hinner key)) _
  | write _ => exact hranged.elim
  | delete _ => exact hranged.elim
  | copy _ _ _ _ => exact hranged.elim
  | clear => exact hranged.elim
  | evict => exact hranged.elim

/-- What goes on elsewhere after an operation does not matter, in whatever way it ends. -/
theorem UsedBy.bind {α β : Type} {touch? : Option Touch} {dropped : String → Prop} {x : Action α}
    {f : α → Action β}
    (hx : Ensures x w (fun _ v => c.UsedBy touch? dropped w v)
      fun _ v => c.UsedBy touch? dropped w v) (hf : ∀ a, Within c.Elsewhere (f a)) :
    Ensures (x >>= f) w (fun _ v => c.UsedBy touch? dropped w v)
      fun _ v => c.UsedBy touch? dropped w v :=
  Ensures.bind hx fun a v hv => (hf a v).mono (fun _ _ h => hv.before h) fun _ _ h => hv.before h

/-- **Operations.** What an operation through a cache does to the entries. -/
theorem perform_usedBy (hinner : inner.InView (c.dir ≠ ·)) {operation : Operation}
    (hdirect : operation.IsDirect) (w : World) :
    Ensures ((Store.caching name c inner).perform operation) w
      (fun _ v => c.UsedBy (c.touchOf inner w operation) operation.drops w v)
      fun _ v => c.UsedBy (c.touchOf inner w operation) operation.drops w v := by
  have hR := persists_elsewhere c
  by_cases hranged : operation.IsRanged
  · rw [touchOf_of_isRanged hranged]
    exact (perform_elsewhere name hinner hdirect hranged w).mono (fun _ _ h => .of_elsewhere h)
      fun _ _ h => .of_elsewhere h
  have hplain : ∀ {α : Type} {key : String} {x y : Action α} {Q : World → Prop},
      ¬ ByteRange.isAnnotated key = true → Ensures y w (fun _ v => Q v) (fun _ v => Q v) →
        Ensures (if ByteRange.isAnnotated key then x else y) w (fun _ v => Q v) fun _ v => Q v :=
    fun hkey hy => by rwa [if_neg hkey]
  cases operation with
  | write request =>
    have hwrite := c.writeKeeping_uses hinner request w
    show Ensures (do return Answer.stored (← Store.write _ request) : Action Answer) w _ _
    rw [Store.write_eq_writeKeeping, bind_assoc]
    unfold touchOf
    dsimp only
    cases hrun : c.writeKeeping inner request w with
    | ok result v => exact Ensures.of_ok (run_bind_ok hrun _) (hwrite.ok_of_eq hrun)
    | error e v => exact Ensures.of_error (run_bind_error hrun _) (hwrite.error_of_eq hrun)
  | read key dest =>
    rw [show c.touchOf inner w (.read key dest) = c.lookUp inner key w from if_neg hranged]
    have hdest : ∀ dir file, dest ≠ .entry dir file := by
      rintro dir file rfl
      exact hdirect
    refine UsedBy.bind (hplain hranged (UsedBy.bind (fetch_uses hinner key w) fun path? => ?_))
      fun _ => .pure hR _
    cases path? with
    | none => exact .pure hR _
    | some path => exact (Within.copyFile hR path hdest).bind hR fun _ => .pure hR _
  | stream key =>
    rw [show c.touchOf inner w (.stream key) = c.lookUp inner key w from if_neg hranged]
    refine UsedBy.bind (hplain hranged (UsedBy.bind (fetch_uses hinner key w) fun path? =>
      .pure hR _)) fun stream? => ?_
    cases stream? with
    | none => exact .pure hR _
    | some stream => exact ((Within.drain stream).of_still hR).map hR _
  | file key =>
    rw [show c.touchOf inner w (.file key) = c.lookUp inner key w from if_neg hranged]
    refine UsedBy.bind (x := (Store.caching name c inner).localFile key) ?_ fun lookup => ?_
    · rw [Store.localFile_caching]
      refine hplain hranged (UsedBy.bind (fetch_uses hinner key w) fun path? => ?_)
      cases path? <;> exact .pure hR _
    · cases lookup with
      | found path => exact ((Within.fileContent path).of_still hR).map hR _
      | missing => exact .pure hR _
      | unknown => exact .pure hR _
  | contains key =>
    have htouch := c.touch_uses key w
    unfold touchOf
    dsimp only
    rw [if_neg (show ¬ ByteRange.isAnnotated key = true from hranged)]
    refine UsedBy.bind (hplain hranged ?_) fun _ => .pure hR _
    cases hrun : c.touch key w with
    | error e v =>
      obtain rfl := htouch.error_of_eq hrun
      exact Ensures.bind_error hrun (.of_elsewhere (.refl c v))
    | ok path? v =>
      refine Ensures.bind_ok hrun ?_
      rcases htouch.ok_of_eq hrun with ⟨rfl, rfl⟩ | ⟨hsome, hv⟩
      · exact (Store.contains_elsewhere hinner key v).mono (fun _ _ h => .of_elsewhere h)
          fun _ _ h => .of_elsewhere h
      · obtain ⟨path, rfl⟩ := Option.isSome_iff_exists.1 hsome
        exact Ensures.pure hv
  | delete key =>
    refine UsedBy.bind (UsedBy.bind (c.remove_uses key w) fun _ => ?_) fun _ => .pure hR _
    exact Store.delete_elsewhere hinner key
  | clear =>
    refine UsedBy.bind (UsedBy.bind (c.clear_uses w) fun _ => ?_) fun _ => .pure hR _
    exact Store.clear_elsewhere hinner
  | evict => exact UsedBy.bind (c.evict_uses w) fun _ => .pure hR _
  | copy _ _ _ _ => exact hdirect.elim

end FileCache

end BlobVault
