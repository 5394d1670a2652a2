import BlobVault.Proofs.Copying.Lookup

/-!
# Young entries

No eviction removes an entry before its minimum age has passed since it was used. As nothing else
takes the entry of a key away but what is about that key, an entry is safe for that time, whatever
directories hold and whatever requests fail.

1. `World.Still`, `Within`: what passes no time and concerns no entry, and actions that make changes
   of some kind in every world.
2. `FileCache.Shelters`, `FileCache.Ages`: changes that take no young entry of a key away.
3. `evictExcept_ages`, `touch_ages`, `install_ages`, `fetch_ages`, `insertFile_ages`, `remove_ages`:
   the operations of a cache.
-/

namespace BlobVault

open Std (ExtTreeMap)
open FileCache (entryName entries_eq)

/-! ## Changes that concern no entry -/

/-- No time has passed, and every cache has the entries that it had. -/
structure World.Still (w v : World) : Prop where
  now : v.now = w.now
  entries : ∀ c : FileCache, c.entries v = c.entries w

namespace World

variable {w v u : World}

namespace Still

theorem refl (w : World) : w.Still w := ⟨rfl, fun _ => rfl⟩

theorem trans (h : w.Still v) (h' : v.Still u) : w.Still u :=
  ⟨h'.now.trans h.now, fun c => (h'.entries c).trans (h.entries c)⟩

theorem of_caches (hnow : v.now = w.now) (hcaches : v.caches = w.caches) : w.Still v := by
  refine ⟨hnow, fun c => ?_⟩
  unfold FileCache.entries
  rw [hcaches]

theorem of_shares (h : w.Shares v) : w.Still v := by
  rw [h.rest]
  exact of_caches rfl rfl

end Still

/-- Local files are no concern of containers and memories. -/
theorem Shares.read (h : w.Shares v) (path : LocalPath) : v.read path = w.read path := by
  rw [h.rest]
  rfl

theorem now_setTemps (w : World) (t : TempDir) (files : TempFiles) :
    (w.setTemps t files).now = w.now := by
  unfold setTemps
  split
  · rfl
  · split <;> rfl

theorem still_setTemps (w : World) (t : TempDir) (files : TempFiles) :
    w.Still (w.setTemps t files) :=
  ⟨w.now_setTemps t files, w.entries_setTemps t files⟩

theorem still_putTemp (w : World) (t : TempDir) (serial : Nat) (content : Bytes)
    (writable : Bool := true) : w.Still (w.putTemp t serial content writable) := by
  unfold putTemp
  split
  · exact w.still_setTemps t _
  · exact .refl w

/-- Whether a file that is no entry may be written to is no concern of entries. -/
theorem still_protect {path : LocalPath} (hpath : ∀ dir name, path ≠ .entry dir name) (w : World) :
    w.Still (w.protect path) := by
  unfold protect
  cases path with
  | caller name =>
    dsimp only
    split
    · exact .of_caches rfl rfl
    · exact .refl w
  | detached => exact .refl w
  | temp t serial =>
    dsimp only
    split
    · split
      · exact w.still_setTemps t _
      · exact .refl w
    · exact .refl w
  | entry dir name => exact absurd rfl (hpath dir name)

theorem still_dropTemp (w : World) (t : TempDir) (serial : Nat) :
    w.Still (w.dropTemp t serial) := by
  unfold dropTemp
  split
  · exact w.still_setTemps t _
  · exact .refl w

end World

/-- The action makes a change of some kind in every world, in whatever way it ends. -/
def Within {α : Type} (R : World → World → Prop) (x : Action α) : Prop :=
  ∀ w, Ensures x w (fun _ v => R w v) fun _ v => R w v

/-- A kind of changes that may be none, and goes on after another. -/
structure Chains (R : World → World → Prop) : Prop where
  refl : ∀ w : World, R w w
  trans : ∀ {w v u : World}, R w v → R v u → R w u

/-- A kind of changes that goes on after another, and may be none that concerns entries. -/
structure Persists (R : World → World → Prop) : Prop where
  still : ∀ {w v : World}, w.Still v → R w v
  trans : ∀ {w v u : World}, R w v → R v u → R w u

theorem Persists.chains {R : World → World → Prop} (hR : Persists R) : Chains R :=
  ⟨fun w => hR.still (.refl w), hR.trans⟩

instance {R : World → World → Prop} : CoeOut (Persists R) (Chains R) := ⟨Persists.chains⟩

theorem World.persists_still : Persists World.Still := ⟨id, .trans⟩

namespace Within

variable {α β : Type} {R S : World → World → Prop} {x : Action α}

theorem mono (hx : Within R x) (h : ∀ {w v : World}, R w v → S w v) : Within S x := fun w =>
  (hx w).mono (fun _ _ => h) fun _ _ => h

theorem of_still (hR : Persists R) (hx : Within World.Still x) : Within R x := hx.mono hR.still

variable (hR : Chains R)

include hR

theorem pure (a : α) : Within R (Pure.pure a : Action α) := fun w => Ensures.pure (hR.refl w)

theorem throw (e : BlobError) : Within R (throw e : Action α) := fun w => Ensures.throw (hR.refl w)

/-- An action that goes on after what is known of the world. -/
theorem after {w v : World} (hv : R w v) (hx : Within R x) :
    Ensures x v (fun _ u => R w u) fun _ u => R w u :=
  (hx v).mono (fun _ _ h => hR.trans hv h) fun _ _ h => hR.trans hv h

theorem bind {f : α → Action β} (hx : Within R x) (hf : ∀ a, Within R (f a)) :
    Within R (x >>= f) := fun w => Ensures.bind (hx w) fun a _ hv => (hf a).after hR hv

theorem map (hx : Within R x) (f : α → β) : Within R (do return f (← x)) :=
  hx.bind hR fun _ => pure hR _

end Within

/-- An action with a temporary file begins where no time has passed and no other file is concerned,
or there is no place for the file. -/
theorem withTemp_still {α : Type} {dir : TempDir} {use : LocalPath → Action α} {w : World}
    {Q : α → World → Prop} {E : BlobError → World → Prop} (herror : ∀ e, E e w)
    (huse : ∀ serial v, w.Still v → v.Writable (.temp dir serial) →
      (∀ path, ¬ path.IsTemporary → v.read path = w.read path) →
      Ensures (use (.temp dir serial)) v (fun a x => Q a (x.dropTemp dir serial))
        fun e x => E e (x.dropTemp dir serial)) :
    Ensures (withTemp dir use) w Q E := by
  cases hfiles : w.temps? dir with
  | none => exact Ensures.of_error (withTemp_none hfiles) (herror _)
  | some files =>
    refine withTemp_spec hfiles fun serial _ => ?_
    exact huse serial _ (w.still_putTemp dir serial []) (World.writable_putTemp hfiles serial [])
      fun path hpath => World.read_putTemp_of_not_isTemporary hpath w dir serial []

/-- Temporary files are no concern of entries. -/
theorem Within.withTemp {α : Type} {R : World → World → Prop} (hR : Persists R) {dir : TempDir}
    {use : LocalPath → Action α} (huse : ∀ serial, Within R (use (.temp dir serial))) :
    Within R (BlobVault.withTemp dir use) := by
  intro w
  refine withTemp_still (fun _ => hR.still (.refl w)) fun serial v hv _ _ => ?_
  have hdrop : ∀ x, R v x → R w (x.dropTemp dir serial) := fun x hx =>
    hR.trans (hR.still hv) (hR.trans hx (hR.still (x.still_dropTemp dir serial)))
  exact (huse serial v).mono (fun _ x hx => hdrop x hx) fun _ x hx => hdrop x hx

/-! ## Young entries -/

namespace FileCache

variable {c : FileCache} {key k : String} {content : Bytes} {safe : Prop} {w v u : World}

/-- The key has an entry with the content, used at the moment or later. -/
def UsedSince (c : FileCache) (key : String) (content : Bytes) (start : Instant) (w : World) :
    Prop :=
  ∃ t writable, start ≤ t ∧ (c.entries w)[entryName key]? = some (.file content t writable)

/-- An entry of the key with the content that was used since some moment is there still, unless the
minimum age has passed since then. -/
def Shelters (c : FileCache) (key : String) (content : Bytes) (w v : World) : Prop :=
  ∀ start, start ≤ w.now → v.now < start + c.limits.minAge →
    c.UsedSince key content start w → c.UsedSince key content start v

/-- The clock has not gone back, and a change that is safe shelters the entry of the key. -/
structure Ages (c : FileCache) (key : String) (content : Bytes) (safe : Prop) (w v : World) :
    Prop where
  now : w.now ≤ v.now
  shelters : safe → c.Shelters key content w v

theorem UsedSince.of_entries {start : Instant} (h : c.UsedSince key content start w)
    (hv : c.entries v = c.entries w) : c.UsedSince key content start v := by
  obtain ⟨t, writable, ht, hentry⟩ := h
  exact ⟨t, writable, ht, by rw [hv, hentry]⟩

theorem UsedSince.mono {start since : Instant} (h : c.UsedSince key content since w)
    (hstart : start ≤ since) : c.UsedSince key content start w := by
  obtain ⟨t, writable, ht, hentry⟩ := h
  exact ⟨t, writable, hstart.trans ht, hentry⟩

theorem UsedSince.entry?_eq {start : Instant} (h : c.UsedSince key content start w) :
    c.entry? w key = some content := by
  obtain ⟨t, writable, -, hentry⟩ := h
  exact entry?_eq_some hentry

/-- Changes of no entries shelter all of them. -/
theorem Shelters.of_entries (h : c.entries v = c.entries w) : c.Shelters key content w v :=
  fun _ _ _ hused => hused.of_entries h

namespace Ages

theorem of_still (h : w.Still v) : c.Ages key content safe w v :=
  ⟨h.now.ge, fun _ => .of_entries (h.entries c)⟩

theorem trans (h : c.Ages key content safe w v) (h' : c.Ages key content safe v u) :
    c.Ages key content safe w u := by
  refine ⟨h.now.trans h'.now, fun hsafe start hstart hend hused => ?_⟩
  have hv := h.shelters hsafe start hstart (h'.now.trans_lt hend) hused
  exact h'.shelters hsafe start (hstart.trans h.now) hend hv

theorem imp {safe' : Prop} (h : c.Ages key content safe w v) (hsafe : safe' → safe) :
    c.Ages key content safe' w v := ⟨h.now, fun h' => h.shelters (hsafe h')⟩

theorem of_safe (h : c.Ages key content safe w v) (hsafe : safe) : c.Ages key content True w v :=
  h.imp fun _ => hsafe

/-- What is safe for other keys is so for one that has no entry to lose. -/
theorem of_miss (h : c.Ages key content (k ≠ key) w v)
    (hmiss : (c.entries w)[entryName k]? = none) : c.Ages key content True w v := by
  refine ⟨h.now, fun _ => ?_⟩
  by_cases hk : k = key
  · subst hk
    rintro start - - ⟨t, writable, -, hentry⟩
    rw [hmiss] at hentry
    exact absurd hentry nofun
  · exact h.shelters hk

end Ages

theorem persists_ages (c : FileCache) (key : String) (content : Bytes) (safe : Prop) :
    Persists (c.Ages key content safe) := ⟨.of_still, .trans⟩

/-- A new entry, made now. -/
theorem usedSince_insert {d : CacheDir} (hd : w.caches[c.dir]? = some d) (k : String)
    (held : Bytes) (writable : Bool) :
    c.UsedSince k held w.now
      (c.refill w (w.now + 1) ((c.entries w).insert (entryName k) (.file held w.now writable))) := by
  refine ⟨w.now, writable, le_refl _, ?_⟩
  rw [entries_refill hd]
  exact ExtTreeMap.getElem?_insert_self

/-- A new entry is in the way of no other, and takes the place of one that it repeats. -/
theorem ages_insert {d : CacheDir} (hd : w.caches[c.dir]? = some d) (k : String) (held : Bytes)
    (writable : Bool) :
    c.Ages key content (k = key → held = content) w
      (c.refill w (w.now + 1) ((c.entries w).insert (entryName k) (.file held w.now writable))) := by
  have hnow : w.now ≤ (c.refill w (w.now + 1)
      ((c.entries w).insert (entryName k) (.file held w.now writable))).now := by
    rw [refill_rest]
    exact (Int.lt_add_one_of_le (le_refl _)).le
  refine ⟨hnow, fun hsafe start hstart _ hused => ?_⟩
  by_cases hk : k = key
  · obtain rfl := hsafe hk
    exact hk ▸ (usedSince_insert hd k held writable).mono hstart
  · obtain ⟨t, mode, ht, hentry⟩ := hused
    refine ⟨t, mode, ht, ?_⟩
    rw [entries_refill hd, getElem?_insert_of_ne fun hname => hk (entryName_inj hname), hentry]

/-! ## The operations of a cache -/

/-- An eviction takes no young entry away, and not the one to keep. -/
theorem evictExcept_ages (c : FileCache) (keep? : Option String) (key : String) (content : Bytes)
    (w : World) :
    Ensures (c.evictExcept keep?) w
      (fun _ v => c.Ages key content True w v ∧ v.now = w.now ∧
        ∀ name, keep? = some name → (c.entries v)[name]? = (c.entries w)[name]?)
      fun _ v => v = w := by
  refine (c.evictExcept_leaves keep? w).mono ?_ fun _ _ h => h
  rintro _ v ⟨hv, hevicts⟩
  have hnow : v.now = w.now := by rw [hv, refill_rest]
  refine ⟨⟨hnow.ge, fun _ start hstart hend ⟨t, writable, ht, hentry⟩ =>
    ⟨t, writable, ht, ?_⟩⟩, hnow, hevicts.keeps⟩
  rw [hnow] at hend
  cases hnode : (c.entries v)[entryName key]? with
  | some node => rw [← hentry, hevicts.thins _ node hnode]
  | none =>
    obtain ⟨_, used, _, hfile, hage, -⟩ := hevicts.oldest _ _ hentry hnode
    obtain ⟨-, rfl, -⟩ := CacheNode.file.inj hfile
    -- the entry is younger than the minimum age
    have hpositive : (0 : Int) < c.limits.minAge :=
      lt_add_iff_pos_right start |>.1 (hstart.trans_lt hend)
    have hyoung : w.now - t < c.limits.minAge :=
      sub_lt_iff_lt_add'.2 (hend.trans_le (add_le_add_left ht _))
    exact absurd hage (max_lt hpositive hyoung).not_ge

/-- A look-up in the cache marks what it finds as used now. -/
theorem touch_ages (c : FileCache) (k key : String) (content : Bytes) (w : World) :
    Ensures (c.touch k) w
      (fun path? v => c.Ages key content True w v ∧
        ((path? = none ∧ v = w ∧ (c.entries w)[entryName k]? = none) ∨
          (path? = some (.entry c.dir (entryName k)) ∧ ∃ held, c.UsedSince k held w.now v)))
      fun _ v => v = w := by
  refine (c.touch_spec k w).mono ?_ fun _ _ h => h
  rintro path? v (⟨rfl, rfl, hmiss⟩ | ⟨rfl, ⟨d, hd⟩, held, t, hhit, rfl⟩)
  · exact ⟨.of_still (.refl v), .inl ⟨rfl, rfl, hmiss⟩⟩
  refine ⟨?_, .inr ⟨rfl, held, usedSince_insert hd k held true⟩⟩
  have hages : c.Ages key content (k = key → held = content) w _ := ages_insert hd k held true
  by_cases hsame : k = key → held = content
  · exact hages.of_safe hsame
  · -- the entry that is marked is of other content than the one that is to be sheltered
    refine ⟨hages.now, fun _ start _ _ hused => ?_⟩
    obtain ⟨rfl, hne⟩ := Classical.not_imp.1 hsame
    obtain ⟨t', mode, -, hentry⟩ := hused
    rw [hhit] at hentry
    exact absurd (CacheNode.file.inj (Option.some.inj hentry)).1 hne

theorem touch_within (c : FileCache) (k key : String) (content : Bytes) :
    Within (c.Ages key content True) (c.touch k) := fun w =>
  (c.touch_ages k key content w).mono (fun _ _ h => h.1) fun _ _ h => h ▸ .of_still (.refl _)

theorem evict_within (c : FileCache) (keep? : Option String) (key : String) (content : Bytes) :
    Within (c.Ages key content True) (c.evictExcept keep?) := fun w =>
  (c.evictExcept_ages keep? key content w).mono (fun _ _ h => h.1)
    fun _ _ h => h ▸ .of_still (.refl _)

/-- Committing a temporary file makes an entry of what it holds, which is not evicted at once. -/
theorem install_ages (c : FileCache) (k : String) (t : TempDir) (serial : Nat) (key : String)
    (content : Bytes) (w : World) :
    Ensures (c.install k (.temp t serial)) w
      (fun path v => path = .entry c.dir (entryName k) ∧ (∃ held, c.UsedSince k held w.now v) ∧
        c.Ages key content (k = key → w.read (.temp t serial) = .ok content) w v)
      fun _ v => v = w := by
  unfold install
  refine Ensures.bind (c.publish_spec k t serial w) ?_
  rintro _ u ⟨held, hread, ⟨d, hd⟩, rfl⟩
  -- the world once the entry is made
  have hmade := usedSince_insert hd k held (!w.isReadOnly (.temp t serial))
  have hages : c.Ages key content (k = key → held = content) w _ :=
    ages_insert hd k held (!w.isReadOnly (.temp t serial))
  generalize c.refill w (w.now + 1) ((c.entries w).insert (entryName k) _) = x
    at hmade hages ⊢
  have hdrop := x.still_dropTemp t serial
  have hevict : Ensures (c.evictExcept (some (entryName k))) (x.dropTemp t serial)
      (fun _ v => c.Ages key content True (x.dropTemp t serial) v ∧
        (c.entries v)[entryName k]? = (c.entries x)[entryName k]?)
      fun _ v => c.Ages key content True (x.dropTemp t serial) v ∧
        (c.entries v)[entryName k]? = (c.entries x)[entryName k]? := by
    rw [← hdrop.entries c]
    refine (c.evictExcept_ages (some (entryName k)) key content _).mono
      (fun _ _ h => ⟨h.1, h.2.2 _ rfl⟩) ?_
    rintro _ v rfl
    exact ⟨.of_still (.refl _), rfl⟩
  refine Ensures.bind hevict.attempt ?_
  rintro _ v ⟨hv, hkept⟩
  obtain ⟨time, writable, htime, hentry⟩ := hmade
  refine Ensures.pure ⟨rfl, ⟨held, time, writable, htime, hkept.trans hentry⟩, ?_⟩
  refine Ages.trans ?_ ((Ages.of_still hdrop).trans (hv.imp fun _ => trivial))
  exact hages.imp fun hsame hk => Except.ok.inj (hread.symm.trans (hsame hk))

/-- A look-up that may download gives an entry that was used just now. -/
theorem fetch_ages {download : LocalPath → Action Bool}
    (hdownload : ∀ t serial, Within World.Still (download (.temp t serial))) (c : FileCache)
    (k key : String) (content : Bytes) (w : World) :
    Ensures (c.fetch k download) w
      (fun path? v => c.Ages key content True w v ∧ ∀ path, path? = some path →
        path = .entry c.dir (entryName k) ∧ ∃ held, c.UsedSince k held w.now v)
      fun _ v => c.Ages key content True w v := by
  rw [c.fetch_eq]
  refine Ensures.bind ((c.touch_ages k key content w).mono (fun _ _ h => h)
    fun _ _ h => h ▸ .of_still (.refl _)) ?_
  rintro path? v ⟨hv, ⟨rfl, rfl, hmiss⟩ | ⟨rfl, held, hused⟩⟩
  swap
  · refine Ensures.pure ⟨hv, fun path hpath => ?_⟩
    exact Option.some.inj hpath ▸ ⟨rfl, held, hused⟩
  refine withTemp_still (fun _ => .of_still (.refl v)) fun serial x hx _ _ => ?_
  -- what comes after the download began, once the temporary file is dropped
  have hdropped : ∀ {y}, c.Ages key content (k ≠ key) x y →
      c.Ages key content True v (y.dropTemp c.tempDir serial) := fun {y} hy =>
    (((Ages.of_still hx).trans hy).trans (.of_still (y.still_dropTemp _ serial))).of_miss hmiss
  refine Ensures.bind ((hdownload c.tempDir serial x).mono (fun _ _ h => h)
    fun _ _ hy => hdropped (.of_still hy)) ?_
  rintro found y hy
  cases found with
  | false => exact Ensures.pure ⟨hdropped (.of_still hy), nofun⟩
  | true =>
    refine Ensures.bind ((c.install_ages k c.tempDir serial key content y).mono (fun _ _ h => h)
      fun _ _ h => h ▸ hdropped (.of_still hy)) ?_
    rintro _ z ⟨rfl, ⟨held, hused⟩, hz⟩
    refine Ensures.pure ⟨?_, fun path hpath => ?_⟩
    · exact hdropped ((Ages.of_still hy).trans (hz.imp fun hk heq => absurd heq hk))
    · have hdrop := (z.still_dropTemp c.tempDir serial).entries c
      rw [hy.now, hx.now] at hused
      exact Option.some.inj hpath ▸ ⟨rfl, held, hused.of_entries hdrop⟩

theorem fetch_within {download : LocalPath → Action Bool}
    (hdownload : ∀ t serial, Within World.Still (download (.temp t serial))) (c : FileCache)
    (k key : String) (content : Bytes) :
    Within (c.Ages key content True) (c.fetch k download) := fun w =>
  (fetch_ages hdownload c k key content w).mono (fun _ _ h => h.1) fun _ _ h => h

/-- Keeping a copy of a local file is safe unless the file has other content for the key. -/
theorem insertFile_ages (c : FileCache) {path : LocalPath} (hpath : ¬ path.IsTemporary)
    (hsame : k = key → ∀ held, w.read path = .ok held → held = content) :
    Ensures (c.insertFile k path) w (fun _ v => c.Ages key content True w v)
      fun _ v => c.Ages key content True w v := by
  rw [c.insertFile_eq]
  refine withTemp_still (fun _ => .of_still (.refl w)) fun serial x hx hwritable hread => ?_
  have hdropped : ∀ {y}, c.Ages key content True x y →
      c.Ages key content True w (y.dropTemp c.tempDir serial) := fun {y} hy =>
    ((Ages.of_still hx).trans hy).trans (.of_still (y.still_dropTemp _ serial))
  cases hcontent : w.read path with
  | error e =>
    rw [← hread path hpath] at hcontent
    exact Ensures.bind_error (run_bind_error (fileContent_error hcontent) _)
      (hdropped (.of_still (.refl x)))
  | ok held =>
    refine Ensures.bind_ok (copyFile_temp ((hread path hpath).trans hcontent) hwritable) ?_
    obtain ⟨files, hfiles, -⟩ := hwritable
    have hplaced := x.still_putTemp c.tempDir serial held (!x.isReadOnly path)
    have hsafe : k = key → (x.putTemp c.tempDir serial held (!x.isReadOnly path)).read
        (.temp c.tempDir serial) = .ok content := by
      intro hk
      rw [World.read_putTemp hfiles, hsame hk held hcontent]
    exact (c.install_ages k c.tempDir serial key content _).mono
      (fun _ _ h => hdropped ((Ages.of_still hplaced).trans (h.2.2.of_safe hsafe)))
      fun _ _ h => h ▸ hdropped (.of_still hplaced)

/-- Dropping the entry of another key is safe. -/
theorem remove_ages (c : FileCache) {k : String} (hk : k ≠ key) (content : Bytes) :
    Within (c.Ages key content True) (c.remove k) := by
  intro w
  unfold remove
  refine Ensures.bind_ok (a := w) (t := w) rfl ?_
  have hsame : c.Ages key content True w w := .of_still (.refl w)
  cases hd : w.caches[c.dir]? with
  | none => exact Ensures.pure hsame
  | some d =>
    dsimp only
    split
    · refine Ensures.set ⟨le_refl _, fun _ start _ _ ⟨t, writable, ht, hentry⟩ =>
        ⟨t, writable, ht, ?_⟩⟩
      rw [entries_eq hd] at hentry
      rw [entries_eq (World.caches_setCache_self w _ _), d.getElem?_eraseAll, if_neg, hentry]
      exact fun hmem => hk (entryName_inj (List.mem_singleton.1 hmem).symm)
    · exact Ensures.pure hsame

end FileCache

end BlobVault
