import BlobVault.Proofs.Caching.Acts
import BlobVault.Proofs.Copying.Pairs

/-!
# What is left of temporary files

A temporary file is gone when the operation ends that it was made for, in whatever way it ends: it
was dropped, or moved to the place of an entry. An operation of a store leaves local files alone but
for the entries of its own caches, and a transfer of a blob leaves the file alone that it reads.

1. `World.Tidy`: changes that leave no temporary file behind and concern some local files only.
2. `Within.withTemp_tidy`, `Within.withLocal_tidy`: a temporary file concerns nobody afterwards.
3. `FileCache.install_tidy`, `FileCache.fetch_tidy` and the like: a cache concerns its own entries.
4. `Store.readInto_tidy`, `Store.write_tidy` and the like, by induction on the caches.
5. `Store.HandedOver`, `Store.copyFrom_hands`: what a transfer leaves of the files of its source.
6. `Store.leaves_no_temps`: all operations.
-/

namespace BlobVault

open Std (ExtTreeMap)
open FileCache (entryName entries_eq)

/-! ## Changes of some local files -/

/-- The path is an entry of a cache in one of the directories. -/
def LocalPath.IsEntryIn (dirs : List String) : LocalPath → Prop
  | .entry dir _ => dir ∈ dirs
  | .caller _ | .detached | .temp _ _ => False

theorem LocalPath.IsEntryIn.mono {dirs more : List String} (hdirs : dirs ⊆ more)
    {path : LocalPath} (h : path.IsEntryIn dirs) : path.IsEntryIn more := by
  cases path with
  | entry dir name => exact hdirs h
  | caller _ => exact h
  | detached => exact h
  | temp _ _ => exact h

/-- The local file reads as before, and may be written to if it might be before. -/
structure World.Same (path : LocalPath) (w v : World) : Prop where
  read : v.read path = w.read path
  isReadOnly : v.isReadOnly path = w.isReadOnly path

/-- There are the directories for temporary files that there were, and all local files but some are
as before. -/
structure World.Tidy (touched : LocalPath → Prop) (w v : World) : Prop where
  places : ∀ dir, (v.temps? dir).isSome = (w.temps? dir).isSome
  same : ∀ path, ¬ touched path → World.Same path w v

/-- The directories for temporary files have what they had, and all local files but some are as
before. -/
structure World.Leaves (touched : LocalPath → Prop) (w v : World) : Prop where
  temps : ∀ dir, v.temps? dir = w.temps? dir
  same : ∀ path, ¬ touched path → World.Same path w v

namespace World

variable {touched more : LocalPath → Prop} {w v u : World} {dir : TempDir} {serial : Nat}

namespace Same

variable {path : LocalPath}

theorem refl (path : LocalPath) (w : World) : Same path w w := ⟨rfl, rfl⟩

theorem trans (h : Same path w v) (h' : Same path v u) : Same path w u :=
  ⟨h'.read.trans h.read, h'.isReadOnly.trans h.isReadOnly⟩

/-- What a file of the caller's is like is a matter of the caller's files. -/
theorem of_files {name : String} (h : v.files[name]? = w.files[name]?) :
    Same (.caller name) w v := by
  constructor
  · unfold World.read
    dsimp only
    rw [h]
  · unfold World.isReadOnly
    dsimp only
    rw [h]

/-- What an entry is like is a matter of the entries of its cache. -/
theorem of_entries {c : FileCache} {name : String}
    (h : (c.entries v)[name]? = (c.entries w)[name]?) : Same (.entry c.dir name) w v := by
  rw [c.getElem?_entries, c.getElem?_entries] at h
  constructor
  · unfold World.read
    dsimp only
    rw [h]
  · unfold World.isReadOnly
    dsimp only
    rw [h]

end Same

/-- What a temporary file is like is a matter of the files in its directory. -/
theorem same_temp_iff : Same (.temp dir serial) w v ↔
    (v.temps? dir).bind (·[serial]?) = (w.temps? dir).bind (·[serial]?) := by
  constructor
  · rintro ⟨hread, hmode⟩
    unfold read at hread
    unfold isReadOnly at hmode
    dsimp only at hread hmode
    generalize (v.temps? dir).bind (·[serial]?) = x at hread hmode ⊢
    generalize (w.temps? dir).bind (·[serial]?) = y at hread hmode ⊢
    cases x with
    | none =>
      cases y with
      | none => rfl
      | some file => exact absurd hread nofun
    | some file =>
      cases y with
      | none => exact absurd hread nofun
      | some file' =>
        have hcontent : file.content = file'.content := Except.ok.inj hread
        have hwritable : file.writable = file'.writable := Bool.not_inj hmode
        obtain ⟨content, writable⟩ := file
        obtain rfl : content = file'.content := hcontent
        obtain rfl : writable = file'.writable := hwritable
        rfl
  · intro h
    constructor
    · unfold read
      dsimp only
      rw [h]
    · unfold isReadOnly
      dsimp only
      rw [h]

theorem KeepsLocal.same (h : w.KeepsLocal v) (path : LocalPath) : Same path w v := by
  rw [h]
  cases path <;> exact ⟨rfl, rfl⟩

theorem KeepsLocal.read (h : w.KeepsLocal v) (path : LocalPath) : v.read path = w.read path :=
  (h.same path).read

namespace Tidy

theorem chains (touched : LocalPath → Prop) : Chains (World.Tidy touched) where
  refl w := ⟨fun _ => rfl, fun path _ => .refl path w⟩
  trans h h' := ⟨fun dir => (h'.places dir).trans (h.places dir),
    fun path hpath => (h.same path hpath).trans (h'.same path hpath)⟩

theorem mono (h : w.Tidy touched v) (hmore : ∀ path, touched path → more path) : w.Tidy more v :=
  ⟨h.places, fun path hpath => h.same path fun htouched => hpath (hmore path htouched)⟩

theorem of_keepsLocal (h : w.KeepsLocal v) : w.Tidy touched v := by
  refine ⟨fun dir => ?_, fun path _ => h.same path⟩
  rw [h]
  cases dir <;> rfl

end Tidy

/-- Where no temporary file is touched, there are the temporary files that there were. -/
theorem Tidy.temps? (h : w.Tidy touched v) (hnone : ∀ dir serial, ¬ touched (.temp dir serial))
    (dir : TempDir) : v.temps? dir = w.temps? dir := by
  have hplaces := h.places dir
  have hsame : ∀ serial : Nat, (v.temps? dir).bind (·[serial]?) =
      (w.temps? dir).bind (·[serial]?) := fun serial =>
    same_temp_iff.1 (h.same _ (hnone dir serial))
  cases hw : w.temps? dir with
  | none =>
    rw [hw] at hplaces
    exact Option.not_isSome_iff_eq_none.1 (by rw [hplaces]; exact nofun)
  | some files =>
    rw [hw] at hplaces hsame
    obtain ⟨files', hv⟩ := Option.isSome_iff_exists.1 hplaces
    rw [hv] at hsame ⊢
    exact congrArg some (ExtTreeMap.ext_getElem? fun {serial} => hsame serial)

theorem Tidy.leaves (h : w.Tidy touched v) (hnone : ∀ dir serial, ¬ touched (.temp dir serial)) :
    w.Leaves touched v := ⟨h.temps? hnone, h.same⟩

theorem files_setTemps (w : World) (dir : TempDir) (new : TempFiles) :
    (w.setTemps dir new).files = w.files := by
  unfold setTemps setCache
  repeat' split
  all_goals rfl

/-- A change of one temporary file concerns no other local file. -/
theorem tidy_setTemps {files new : TempFiles} (h : w.temps? dir = some files)
    (hsame : ∀ n, n ≠ serial → new[n]? = files[n]?) :
    w.Tidy (· = .temp dir serial) (w.setTemps dir new) := by
  refine ⟨fun other => ?_, fun path hpath => ?_⟩
  · by_cases hdir : dir = other
    · subst hdir
      rw [temps?_setTemps h, h]
      rfl
    · rw [temps?_setTemps_of_ne hdir]
  · cases path with
    | caller name => exact .of_files (by rw [files_setTemps])
    | detached => exact ⟨rfl, rfl⟩
    | entry name file =>
      exact .of_entries (c := ⟨name, ⟨0, 0, 0⟩⟩) (by rw [entries_setTemps])
    | temp other n =>
      rw [same_temp_iff]
      by_cases hdir : dir = other
      · subst hdir
        rw [temps?_setTemps h, h]
        exact hsame n fun hn => hpath (hn ▸ rfl)
      · rw [temps?_setTemps_of_ne hdir]

theorem tidy_putTemp (w : World) (dir : TempDir) (serial : Nat) (content : Bytes) :
    w.Tidy (· = .temp dir serial) (w.putTemp dir serial content) := by
  unfold putTemp
  cases h : w.temps? dir with
  | none => exact (Tidy.chains _).refl w
  | some files => exact tidy_setTemps h fun n hn => getElem?_insert_of_ne (Ne.symm hn)

theorem tidy_dropTemp (w : World) (dir : TempDir) (serial : Nat) :
    w.Tidy (· = .temp dir serial) (w.dropTemp dir serial) := by
  unfold dropTemp
  cases h : w.temps? dir with
  | none => exact (Tidy.chains _).refl w
  | some files => exact tidy_setTemps h fun n hn => getElem?_erase_of_ne (Ne.symm hn)

/-- A temporary file that was dropped is not there. -/
theorem tempFile?_dropTemp (w : World) (dir : TempDir) (serial : Nat) :
    ((w.dropTemp dir serial).temps? dir).bind (·[serial]?) = none := by
  unfold dropTemp
  cases h : w.temps? dir with
  | none =>
    dsimp only
    rw [h]
    rfl
  | some files =>
    dsimp only
    rw [temps?_setTemps h]
    exact ExtTreeMap.getElem?_erase_self

/-- Other entries of a cache are a concern of its own. -/
theorem tidy_refill (c : FileCache) (w : World) (now : Instant) (es : CacheEntries) :
    w.Tidy (·.IsEntryIn [c.dir]) (c.refill w now es) := by
  refine ⟨fun dir => by rw [FileCache.temps?_refill], fun path hpath => ?_⟩
  cases path with
  | caller name => exact .of_files (by rw [FileCache.refill_rest])
  | detached => exact ⟨rfl, rfl⟩
  | temp dir serial => rw [same_temp_iff, FileCache.temps?_refill]
  | entry dir name =>
    refine .of_entries (c := ⟨dir, ⟨0, 0, 0⟩⟩) ?_
    unfold FileCache.entries
    rw [FileCache.caches_refill_of_ne w now es fun h => hpath (List.mem_singleton.2 h.symm)]

/-- A cache directory without some of its entries has the temporary files that it had. -/
theorem tidy_eraseAll {c : FileCache} {d : CacheDir} (hd : w.caches[c.dir]? = some d)
    (names : List String) :
    w.Tidy (·.IsEntryIn [c.dir]) (w.setCache c.dir (d.eraseAll names)) :=
  FileCache.refill_eq hd w.now (d.eraseAll names).entries ▸ tidy_refill c w w.now _

/-- A new entry concerns no other one. -/
theorem tidy_insert {dir name : String} {d : CacheDir} (hd : w.caches[dir]? = some d)
    (node : CacheNode) :
    w.Tidy (· = .entry dir name)
      (w.setCache dir { d with entries := d.entries.insert name node }) := by
  obtain ⟨c, rfl⟩ : ∃ c : FileCache, c.dir = dir := ⟨⟨dir, ⟨0, 0, 0⟩⟩, rfl⟩
  have hrefill := FileCache.refill_eq hd w.now (d.entries.insert name node)
  have htidy := tidy_refill c w w.now (d.entries.insert name node)
  rw [← show _ = w.setCache c.dir _ from hrefill]
  refine ⟨htidy.places, fun path hpath => ?_⟩
  by_cases hentry : path.IsEntryIn [c.dir]
  · cases path with
    | entry other file =>
      obtain rfl : other = c.dir := List.mem_singleton.1 hentry
      refine .of_entries ?_
      rw [FileCache.entries_refill hd, entries_eq hd,
        getElem?_insert_of_ne fun h => hpath (congrArg (LocalPath.entry c.dir) h.symm)]
    | caller _ => exact hentry.elim
    | detached => exact hentry.elim
    | temp _ _ => exact hentry.elim
  · exact htidy.same path hentry

/-- A file of the caller's concerns no other one. -/
theorem tidy_setFile (w : World) (name : String) (node : Node) :
    w.Tidy (· = .caller name) { w with files := w.files.insert name node } := by
  refine ⟨fun dir => by cases dir <;> rfl, fun path hpath => ?_⟩
  cases path with
  | detached => exact ⟨rfl, rfl⟩
  | temp dir serial => cases dir <;> exact ⟨rfl, rfl⟩
  | entry dir file => exact ⟨rfl, rfl⟩
  | caller other =>
    refine .of_files ?_
    exact getElem?_insert_of_ne fun h => hpath (congrArg LocalPath.caller h.symm)

/-- Whether a file may be written to concerns no other one. -/
theorem tidy_protect (w : World) (path : LocalPath) :
    w.Tidy (· = path) (w.protect path) := by
  have hsame : w.Tidy (· = path) w := (Tidy.chains _).refl w
  unfold protect
  cases path with
  | caller name =>
    dsimp only
    split
    · exact w.tidy_setFile name _
    · exact hsame
  | detached => exact hsame
  | temp dir serial =>
    dsimp only
    split
    · split
      · exact tidy_setTemps ‹_› fun n hn => getElem?_insert_of_ne (Ne.symm hn)
      · exact hsame
    · exact hsame
  | entry dir name =>
    dsimp only
    split
    · split
      · exact tidy_insert ‹_› _
      · exact hsame
    · exact hsame

end World

open World (Tidy)

namespace Within

variable {α : Type} {touched more : LocalPath → Prop}

theorem tidy_of_local {x : Action α} (hx : Within World.KeepsLocal x) : Within (Tidy touched) x :=
  hx.mono .of_keepsLocal

theorem tidy_mono {x : Action α} (hx : Within (Tidy touched) x)
    (h : ∀ path, touched path → more path) : Within (Tidy more) x := hx.mono fun hv => hv.mono h

/-- A file that is written is touched. -/
theorem putFile_tidy (path : LocalPath) (content : Bytes) :
    Within (Tidy (· = path)) (BlobVault.putFile path content) := by
  intro w
  have hsame : w.Tidy (· = path) w := (Tidy.chains _).refl w
  unfold BlobVault.putFile
  refine Ensures.bind_ok (a := w) (t := w) rfl ?_
  dsimp only
  by_cases hmode : w.isReadOnly path = true
  · rw [if_pos hmode]
    exact Ensures.bind_error rfl hsame
  rw [if_neg hmode]
  cases path with
  | caller name =>
    dsimp only
    split
    · exact Ensures.throw hsame
    · exact Ensures.set (w.tidy_setFile name _)
  | detached => exact Ensures.throw hsame
  | temp dir serial =>
    dsimp only
    cases hfiles : w.temps? dir with
    | none => exact Ensures.throw hsame
    | some files =>
      have hput := w.tidy_putTemp dir serial content
      unfold World.putTemp at hput
      rw [hfiles] at hput
      exact Ensures.set hput
  | entry dir name =>
    dsimp only
    split
    · rename_i d hd
      exact Ensures.set (World.tidy_insert hd _)
    · exact Ensures.throw hsame

theorem copyFile_tidy (source target : LocalPath) :
    Within (Tidy (· = target)) (BlobVault.copyFile source target) := by
  have hR := Tidy.chains (· = target)
  refine (tidy_of_local (fileContent_local source)).bind hR fun content w => ?_
  refine Ensures.bind_ok (a := w) (t := w) rfl ?_
  refine (putFile_tidy target content).bind hR (fun _ v => ?_) w
  split
  · exact Ensures.of_ok rfl (v.tidy_protect target)
  · exact Ensures.pure (hR.refl v)

/-- A temporary file concerns the action that it is made for only. -/
theorem withTemp_tidy {dir : TempDir} {use : LocalPath → Action α}
    (huse : ∀ serial, Within (Tidy fun path => touched path ∨ path = .temp dir serial)
      (use (.temp dir serial))) : Within (Tidy touched) (BlobVault.withTemp dir use) := by
  intro w
  cases hfiles : w.temps? dir with
  | none => exact Ensures.of_error (withTemp_none hfiles) ((Tidy.chains _).refl w)
  | some files =>
    refine withTemp_spec hfiles fun serial hfree => ?_
    have hdropped : ∀ v, (w.putTemp dir serial []).Tidy
        (fun path => touched path ∨ path = .temp dir serial) v →
        w.Tidy touched (v.dropTemp dir serial) := by
      intro v hv
      have hown : ∀ {x y : World}, x.Tidy (· = .temp dir serial) y →
          x.Tidy (fun path => touched path ∨ path = .temp dir serial) y := fun h =>
        h.mono fun _ => .inr
      have hall := (Tidy.chains _).trans (hown (w.tidy_putTemp dir serial []))
        ((Tidy.chains _).trans hv (hown (v.tidy_dropTemp dir serial)))
      refine ⟨hall.places, fun path hpath => ?_⟩
      by_cases heq : path = .temp dir serial
      · -- the file itself was not there before, and it is not there any more
        rw [heq, World.same_temp_iff, World.tempFile?_dropTemp, hfiles, Option.bind_some, hfree]
      · exact hall.same path (not_or.2 ⟨hpath, heq⟩)
    exact (huse serial _).mono (fun _ v hv => hdropped v hv) fun _ v hv => hdropped v hv

/-- Bringing content into a local file concerns the action that it is brought for only. -/
theorem withLocal_tidy {r : WriteRequest} {dir : TempDir} {use : LocalContent → Action α}
    (huse : ∀ content, Within
      (Tidy fun path => touched path ∨ content.temporary = true ∧ path = content.path)
      (use content)) : Within (Tidy touched) (r.withLocal dir use) := by
  unfold WriteRequest.withLocal
  split
  · refine withTemp_tidy fun serial => ?_
    have hR := Tidy.chains fun path => touched path ∨ path = .temp dir serial
    refine (transfer (tidy_of_local (fileContent_local _)) hR (fun bytes => ?_) r _).bind hR
      fun _ => (huse _).tidy_mono fun _ h => h.imp_right And.right
    exact (putFile_tidy _ bytes).tidy_mono fun _ => .inr
  · have hR := Tidy.chains touched
    have hread : ∀ content : LocalContent, content.temporary = false →
        Within (Tidy touched) (use content) := fun content htemporary =>
      (huse content).tidy_mono fun path h => h.resolve_right fun hown => by
        rw [htemporary] at hown
        exact absurd hown.1 nofun
    exact (inspect (tidy_of_local (fileContent_local _)) hR (tidy_of_local (fileSize_local _)) r).bind
      hR fun _ => hread _ rfl

end Within

/-! ## Operations of a cache -/

namespace FileCache

variable {c : FileCache}

theorem touch_tidy (c : FileCache) (key : String) :
    Within (Tidy (·.IsEntryIn [c.dir])) (c.touch key) := by
  have hsame := (Tidy.chains (·.IsEntryIn [c.dir])).refl
  refine fun w => (c.touch_spec key w).mono ?_ fun _ _ h => h ▸ hsame _
  rintro _ v (⟨-, rfl, -⟩ | ⟨-, -, _, _, -, rfl⟩)
  · exact hsame v
  · exact World.tidy_refill c w _ _

theorem evictExcept_tidy (c : FileCache) (keep? : Option String) :
    Within (Tidy (·.IsEntryIn [c.dir])) (c.evictExcept keep?) := by
  refine fun w => (c.evictExcept_leaves keep? w).mono ?_ fun _ _ h => h ▸ (Tidy.chains _).refl _
  rintro _ v ⟨hv, -⟩
  rw [hv]
  exact World.tidy_refill c w _ _

/-- A temporary file that becomes an entry is not there any more. -/
theorem install_tidy (c : FileCache) (key : String) (path : LocalPath) :
    Within (Tidy fun other => other.IsEntryIn [c.dir] ∨ other = path) (c.install key path) := by
  have hR := Tidy.chains fun other => other.IsEntryIn [c.dir] ∨ other = path
  unfold install
  cases path with
  | temp t serial =>
    have hpublish : Within (Tidy fun other => other.IsEntryIn [c.dir] ∨ other = .temp t serial)
        (c.publish key t serial) := by
      refine fun w => (c.publish_spec key t serial w).mono ?_ fun _ _ h => h ▸ hR.refl _
      rintro _ v ⟨content, -, -, rfl⟩
      exact hR.trans ((World.tidy_refill c w _ _).mono fun _ => .inl)
        ((World.tidy_dropTemp _ t serial).mono fun _ => .inr)
    refine hpublish.bind hR fun _ => .bind hR (fun w => Ensures.attempt ?_) fun _ => .pure hR _
    exact ((c.evictExcept_tidy _).tidy_mono fun _ => .inl) w
  | caller _ => exact .throw hR _
  | detached => exact .throw hR _
  | entry _ _ => exact .throw hR _

theorem insertFile_tidy (c : FileCache) (key : String) (source : LocalPath) :
    Within (Tidy (·.IsEntryIn [c.dir])) (c.insertFile key source) := by
  rw [c.insertFile_eq]
  refine .withTemp_tidy fun serial => ?_
  exact ((Within.copyFile_tidy source _).tidy_mono fun _ => .inr).bind (Tidy.chains _) fun _ =>
    c.install_tidy key _

/-- A look-up concerns what a download into a temporary file does, and the entries of the cache. -/
theorem fetch_tidy {touched : LocalPath → Prop} {download : LocalPath → Action Bool}
    (hentries : ∀ path, path.IsEntryIn [c.dir] → touched path)
    (hdownload : ∀ dir serial, Within
      (Tidy fun path => touched path ∨ path = .temp dir serial) (download (.temp dir serial)))
    (key : String) : Within (Tidy touched) (c.fetch key download) := by
  have hR := Tidy.chains touched
  rw [c.fetch_eq]
  refine ((c.touch_tidy key).tidy_mono hentries).bind hR fun path? => ?_
  cases path? with
  | some path => exact .pure hR _
  | none =>
    refine .withTemp_tidy fun serial => ?_
    have hR' := Tidy.chains fun path => touched path ∨ path = .temp c.tempDir serial
    refine (hdownload _ serial).bind hR' fun found => ?_
    cases found with
    | false => exact .pure hR' _
    | true =>
      exact ((c.install_tidy key _).tidy_mono fun path => .imp_left (hentries path)).map hR' _

theorem remove_tidy (c : FileCache) (key : String) :
    Within (Tidy (·.IsEntryIn [c.dir])) (c.remove key) := by
  intro w
  unfold remove
  refine Ensures.bind_ok (a := w) (t := w) rfl ?_
  cases hd : w.caches[c.dir]? with
  | none => exact Ensures.pure ((Tidy.chains _).refl w)
  | some d =>
    dsimp only
    split
    · exact Ensures.set (World.tidy_eraseAll hd _)
    · exact Ensures.pure ((Tidy.chains _).refl w)

end FileCache

/-! ## Operations of a store -/

namespace Store

variable {name key : String} {c : FileCache} {inner : Store}

theorem isEntryIn_cache {path : LocalPath} (h : path.IsEntryIn [c.dir]) :
    path.IsEntryIn (Store.caching name c inner).dirs :=
  h.mono (List.cons_subset_cons _ (List.nil_subset _))

theorem isEntryIn_inner {path : LocalPath} (h : path.IsEntryIn inner.dirs) :
    path.IsEntryIn (Store.caching name c inner).dirs :=
  h.mono (List.subset_cons_self _ _)

/-- Downloads of the key concern their destination and the entries of the caches that they go
through. -/
def DownloadsTidy (s : Store) (key : String) : Prop :=
  ∀ dest, Within (Tidy fun path => path.IsEntryIn s.dirs ∨ path = dest) (s.readInto key dest)

theorem DownloadsTidy.fetch (h : inner.DownloadsTidy key) :
    Within (Tidy (·.IsEntryIn (Store.caching name c inner).dirs))
      (c.fetch key (inner.readInto key)) :=
  FileCache.fetch_tidy (fun _ => isEntryIn_cache)
    (fun _ _ => (h _).tidy_mono fun _ => .imp_left isEntryIn_inner) key

theorem readInto_tidy (s : Store) (key : String) : s.DownloadsTidy key := by
  have hplain : ∀ p : PlainStore, p.toStore.DownloadsTidy key := fun p dest =>
    .readInto_of (Tidy.chains _) .of_keepsLocal
      (fun content => (Within.putFile_tidy dest content).tidy_mono fun _ => .inr) p key
  induction s with
  | memory m => exact hplain (.memory m)
  | remote r => exact hplain (.remote r)
  | caching name c inner ih =>
    intro dest
    refine .caching_readInto (Tidy.chains _) (fun path => ?_) ?_ ?_
    · exact (Within.copyFile_tidy path dest).tidy_mono fun _ => .inr
    · exact (ih dest).tidy_mono fun _ => .imp_left isEntryIn_inner
    · exact ih.fetch.tidy_mono fun _ => .inl

theorem localFile_tidy (s : Store) (key : String) :
    Within (Tidy (·.IsEntryIn s.dirs)) (s.localFile key) := by
  cases s with
  | memory m => exact .pure (Tidy.chains _) _
  | remote r => exact .pure (Tidy.chains _) _
  | caching name c inner =>
    exact .caching_localFile (Tidy.chains _) (inner.readInto_tidy key).fetch

theorem openStream_tidy (s : Store) (key : String) :
    Within (Tidy (·.IsEntryIn s.dirs)) (s.openStream key) := by
  induction s with
  | memory m => exact .tidy_of_local (.openStream_local (.memory m) key)
  | remote r => exact .tidy_of_local (.openStream_local (.remote r) key)
  | caching name c inner ih =>
    exact .caching_openStream (Tidy.chains _) (ih.tidy_mono fun _ => isEntryIn_inner)
      (inner.readInto_tidy key).fetch

theorem delete_tidy (s : Store) (key : String) :
    Within (Tidy (·.IsEntryIn s.dirs)) (s.delete key) := by
  induction s with
  | memory m => exact .tidy_of_local (.delete_local (.memory m) key)
  | remote r => exact .tidy_of_local (.delete_local (.remote r) key)
  | caching name c inner ih =>
    exact ((c.remove_tidy key).tidy_mono fun _ => isEntryIn_cache).bind (Tidy.chains _) fun _ =>
      ih.tidy_mono fun _ => isEntryIn_inner

/-- A write concerns the entries of the caches that it goes through, not the file that it may
read. -/
theorem write_tidy (s : Store) (r : WriteRequest) :
    Within (Tidy (·.IsEntryIn s.dirs)) (s.write r) := by
  have hplain : ∀ (p : PlainStore) (r : WriteRequest),
      Within (Tidy (·.IsEntryIn p.toStore.dirs)) (p.toStore.write r) := by
    intro p r
    rw [p.write_eq]
    exact .withLocal_tidy fun content =>
      .tidy_of_local ((Within.storeFile_local p _ _ _).map World.chains_keepsLocal _)
  induction s generalizing r with
  | memory m => exact hplain (.memory m) r
  | remote o => exact hplain (.remote o) r
  | caching name c inner ih =>
    rw [write_caching]
    refine .withLocal_tidy fun content => ?_
    have hR := Tidy.chains fun path => path.IsEntryIn (Store.caching name c inner).dirs ∨
      content.temporary = true ∧ path = content.path
    refine ((ih _).tidy_mono fun _ h => .inl (isEntryIn_inner h)).bind hR fun key => ?_
    refine .bind hR (fun w => ?_) fun _ => .pure hR _
    split
    · rename_i htemporary
      refine Ensures.attempt (((c.install_tidy key content.path).tidy_mono fun path => ?_) w)
      exact Or.imp isEntryIn_cache fun heq => ⟨htemporary, heq⟩
    · exact Ensures.attempt
        (((c.insertFile_tidy key _).tidy_mono fun _ h => .inl (isEntryIn_cache h)) w)

/-! ## Transfers -/

/-- A blob that is handed on leaves local files alone, but for the entries of the caches that it was
looked up in, if that is so of what is done with the file. -/
theorem withFile_tidy {α : Type} (source : Store) (key : String) (dir : TempDir)
    {use : LocalPath → Action α} (huse : ∀ path, Within World.KeepsLocal (use path)) :
    Within (Tidy (·.IsEntryIn source.dirs)) (source.withFile key dir use) := by
  have hR := Tidy.chains (·.IsEntryIn source.dirs)
  refine (source.localFile_tidy key).bind hR fun lookup => ?_
  cases lookup with
  | found path => exact (Within.tidy_of_local (huse path)).map hR _
  | missing => exact .pure hR _
  | unknown =>
    refine .withTemp_tidy fun serial => ?_
    refine (source.readInto_tidy key _).bind (Tidy.chains _) fun found => ?_
    cases found with
    | false => exact .pure (Tidy.chains _) _
    | true => exact (Within.tidy_of_local (huse _)).map (Tidy.chains _) _

/-- What handing a blob on leaves of local files. None is concerned but the entries of the caches in
front of the source. Entries of the key keep their content, and unless the container copies, a file
that the source gives out has still the content that it was given out with. -/
structure Handed (source : Store) (key : String) (inside : Bool) (w x : World) : Prop where
  tidy : w.Tidy (·.IsEntryIn source.dirs) x
  entries : ∀ dir content, w.read (.entry dir (entryName key)) = .ok content →
    x.read (.entry dir (entryName key)) = .ok content
  served : inside = false → ∀ path u, source.localFile key w = .ok (.found path) u →
    ∃ content, u.read path = .ok content ∧ x.read path = .ok content

/-- What a transfer leaves: what handing the blob on leaves, and at the end of a move what the
deletion of the key makes of that. -/
def HandedOver (source : Store) (key : String) (inside move : Bool) (w v : World) : Prop :=
  ∃ x, source.Handed key inside w x ∧ (v = x ∨ move = true ∧ v = x.after (source.delete key))

section

variable {source : Store} {sourceKey : String} {w v u : World}

/-- A cached file that is given out is there. -/
theorem read_of_localFile {path : LocalPath} (h : source.localFile key w = .ok (.found path) u) :
    ∃ content, u.read path = .ok content := by
  have hfile : Ensures (source.localFile key) w
      (fun lookup u => ∀ path, lookup = .found path → ∃ content, u.read path = .ok content)
      fun _ _ => True := by
    cases source with
    | memory m => exact Ensures.pure nofun
    | remote r => exact Ensures.pure nofun
    | caching name c inner =>
      rw [localFile_caching]
      split
      · exact Ensures.pure nofun
      · rename_i hplain
        refine Ensures.bind ((fetch_any (inner.looksUp key) hplain c name w).mono
          (fun _ _ h => h.2) fun _ _ _ => trivial) fun path? u hread => ?_
        cases path? with
        | none => exact Ensures.pure nofun
        | some other =>
          refine Ensures.pure fun path hpath => ?_
          obtain rfl := Lookup.found.inj hpath
          obtain ⟨content, -, hcontent, -⟩ := hread other rfl
          exact ⟨content, hcontent⟩
  exact hfile.ok_of_eq h path rfl

/-- The caches of the source are asked for the file first. -/
theorem withFile_hands {α : Type} (source : Store) (key : String) (dir : TempDir)
    {use : LocalPath → Action α} (huse : ∀ path, Within World.KeepsLocal (use path)) :
    Within (source.Handed key false) (source.withFile key dir use) := by
  intro w
  refine Ensures.of_after ⟨World.after_spec (source.withFile_tidy key dir huse w), ?_, ?_⟩
  · intro d content hread
    have hkept : ∀ v, source.LookedUp key w v → v.read (.entry d (entryName key)) = .ok content :=
      fun v hv => hv.read_entry hread
    have hused : ∀ {v x y : World}, source.LookedUp key w v → v.KeepsLocal x → x.Warms [] y →
        y.read (.entry d (entryName key)) = .ok content := by
      intro v x y hv hx hy
      have hentries := hy.entries ⟨d, ⟨0, 0, 0⟩⟩ List.not_mem_nil
      have hsame : World.Same (.entry d (entryName key)) x y :=
        .of_entries (c := ⟨d, ⟨0, 0, 0⟩⟩) (congrArg (·[entryName key]?) hentries)
      rw [hsame.read, hx.read]
      exact hkept v hv
    refine World.after_spec (withFile_any hkept (fun _ => hkept) fun path _ v _ hv => ?_)
    exact (huse path v).mono (fun _ x hx y => hused hv hx) fun _ x hx y => hused hv hx
  · intro _ path u hrun
    obtain ⟨content, hread⟩ := read_of_localFile hrun
    refine ⟨content, hread, World.after_spec (P := fun v => v.read path = .ok content) ?_⟩
    have hused : ∀ v, u.KeepsLocal v → v.read path = .ok content := fun v hv =>
      (hv.read path).trans hread
    refine Ensures.bind_ok hrun ?_
    exact Ensures.map ((huse path u).mono (fun _ => hused) fun _ => hused) fun _ _ h => h

theorem Handed.of_keepsLocal (h : w.KeepsLocal v) : source.Handed key true w v :=
  ⟨.of_keepsLocal h, fun _ _ hread => (h.read _).trans hread, nofun⟩

theorem Handed.after_keepsLocal (hv : w.KeepsLocal v) (h : source.Handed key true v u) :
    source.Handed key true w u :=
  ⟨(Tidy.chains _).trans (.of_keepsLocal hv) h.tidy,
    fun dir _ hread => h.entries dir _ ((hv.read _).trans hread), nofun⟩

theorem leads_handedOver (source : Store) (key : String) (move : Bool) :
    Leads World.KeepsLocal (source.HandedOver key true move) where
  here h := ⟨_, .of_keepsLocal h, .inl rfl⟩
  before := fun h ⟨x, hx, hv⟩ => ⟨x, hx.after_keepsLocal h, hv⟩

/-- The end of a transfer is the end of the blob in a move. -/
theorem finish_hands {inside move : Bool} (hw : source.Handed sourceKey inside w v) (key : String) :
    Ensures (if move then (do let _ ← source.delete sourceKey; return some key)
        else return some key : Action (Option String)) v
      (fun _ x => source.HandedOver sourceKey inside move w x)
      fun _ x => source.HandedOver sourceKey inside move w x := by
  cases move with
  | true =>
    rw [if_pos rfl]
    have hdeleted : Ensures (source.delete sourceKey) v
        (fun _ x => source.HandedOver sourceKey inside true w x)
        fun _ x => source.HandedOver sourceKey inside true w x :=
      .of_after ⟨v, hw, .inr ⟨rfl, rfl⟩⟩
    exact Ensures.bind hdeleted fun _ _ h => Ensures.pure h
  | false =>
    rw [if_neg Bool.false_ne_true]
    exact Ensures.pure ⟨v, hw, .inl rfl⟩

/-- A transfer comes to its end once the blob was handed on, and has nothing to do if there is
none. -/
theorem handedOver_of_handed {x : Action (Option Unit)} {f : Option Unit → Action (Option String)}
    {move : Bool} (hx : Within (source.Handed sourceKey false) x) (hnone : f none = pure none)
    (hsome : f (some ()) = if move then (do let _ ← source.delete sourceKey; return some key)
      else return some key) : Within (source.HandedOver sourceKey false move) (x >>= f) := by
  have hstays : ∀ {w v : World}, source.Handed sourceKey false w v →
      source.HandedOver sourceKey false move w v := fun {_ v} hv => ⟨v, hv, .inl rfl⟩
  refine fun w => Ensures.bind ((hx w).mono (fun _ _ h => h) fun _ _ h => hstays h)
    fun done? v hv => ?_
  cases done? with
  | none =>
    rw [hnone]
    exact Ensures.pure (hstays hv)
  | some _ =>
    rw [hsome]
    exact finish_hands hv key

theorem copyThrough_hands (q : PlainStore) (key : String) (source : Store) (sourceKey : String)
    (move : Bool) :
    Within (source.HandedOver sourceKey false move) (q.copyThrough key source sourceKey move) := by
  have hupload : ∀ path, Within World.KeepsLocal (q.upload key path) := by
    intro path
    cases q with
    | memory m => exact .storeFile_local (.memory m) key path 0
    | remote r =>
      exact (Within.fileSize_local path).bind World.chains_keepsLocal fun length =>
        .storeFile_local (.remote r) key path length
  have hfile := withFile_hands source sourceKey q.tempDir hupload
  cases q with
  | memory m => exact handedOver_of_handed hfile rfl rfl
  | remote r => exact handedOver_of_handed hfile rfl rfl

/-- Whatever happens, a transfer hands the blob over on its way. -/
theorem copyFrom_hands (dest source : Store) (key sourceKey : String) (move : Bool) :
    Within (source.HandedOver sourceKey (dest.copiesInside source) move)
      (dest.copyFrom key source sourceKey move) := by
  rcases copyFrom_way dest source key sourceKey move with
    ⟨r, o, -, -, -, hinside, hrun⟩ | ⟨hthrough, hrun⟩
  · rw [hinside, hrun]
    exact .copyInside_of (leads_handedOver source sourceKey move) fun w =>
      finish_hands (.of_keepsLocal (World.chains_keepsLocal.refl w)) key
  · rw [hthrough, hrun]
    exact copyThrough_hands _ key source sourceKey move

theorem HandedOver.tidy {inside move : Bool} (h : source.HandedOver key inside move w v) :
    w.Tidy (·.IsEntryIn source.dirs) v := by
  obtain ⟨x, hx, rfl | ⟨-, rfl⟩⟩ := h
  · exact hx.tidy
  · exact (Tidy.chains _).trans hx.tidy (World.after_spec (source.delete_tidy key x))

end

/-! ## All operations -/

/-- **Temporary files do not outlive an operation.** Take a store of any kind, with any caches in
front of it, and any world: requests may fail at any point, and caches may be unable to keep what
they get. In whatever way an operation ends, every directory for temporary files has exactly what it
had before.

* A write, and a look for a stream or a file, concern no other local file but entries of the caches
  of the store. The file that a write reads, be it the caller's or an entry of another store, is as
  before.
* A download concerns its destination besides.
* A copy or a move concerns entries of the caches of its source alone. Until the deletion at the end
  of a move, entries of the key have the content that they had, and so has the file that the source
  served. -/
theorem leaves_no_temps (s : Store) (w : World) :
    (∀ r : WriteRequest, w.Leaves (·.IsEntryIn s.dirs) (w.after (s.write r))) ∧
    (∀ key, w.Leaves (·.IsEntryIn s.dirs) (w.after (s.openStream key)) ∧
      w.Leaves (·.IsEntryIn s.dirs) (w.after (s.localFile key))) ∧
    (∀ key dest, ¬ dest.IsTemporary →
      w.Leaves (fun path => path.IsEntryIn s.dirs ∨ path = dest) (w.after (s.readInto key dest))) ∧
    ∀ key source sourceKey move,
      w.Leaves (·.IsEntryIn source.dirs) (w.after (s.copyFrom key source sourceKey move)) ∧
      source.HandedOver sourceKey (s.copiesInside source) move w
        (w.after (s.copyFrom key source sourceKey move)) := by
  have hleaves : ∀ {α : Type} (dirs : List String) {x : Action α},
      Within (Tidy (·.IsEntryIn dirs)) x → w.Leaves (·.IsEntryIn dirs) (w.after x) :=
    fun _ _ hx => (World.after_spec (hx w)).leaves fun _ _ h => h
  refine ⟨fun r => hleaves _ (s.write_tidy r), fun key => ⟨?_, ?_⟩, fun key dest hdest => ?_, ?_⟩
  · exact hleaves _ (s.openStream_tidy key)
  · exact hleaves _ (s.localFile_tidy key)
  · refine (World.after_spec (s.readInto_tidy key dest w)).leaves fun dir serial h => ?_
    exact hdest (h.resolve_left id ▸ trivial)
  · intro key source sourceKey move
    have hover := World.after_spec (s.copyFrom_hands source key sourceKey move w)
    exact ⟨hover.tidy.leaves fun _ _ h => h, hover⟩

/-- Neither a stream that breaks off nor a download leaves anything in a cache directory. -/
theorem leaves_no_temps_of_broken_stream :
    let s : Store := .caching "cached" ⟨"cache", ⟨10, 2, 0⟩⟩
      (.memory { name := "vault", memory := "vault", tempDir := .scratch "temps" })
    let r : WriteRequest := { source := .stream [.ok [120], .error .notFound], key? := some "k" }
    let w : World := { caches := ExtTreeMap.insert ∅ "cache" {} }
    (∃ v, s.write r w = .error (.io .notFound) v ∧ v.temps? (.ofCache "cache") = some ∅) ∧
      ¬ (LocalPath.caller "out").IsTemporary ∧
      (w.after (s.readInto "k" (.caller "out"))).temps? (.ofCache "cache") = some ∅ := by
  intro s r w
  have htemps : w.temps? (.ofCache "cache") = some ∅ := by
    show w.caches["cache"]?.bind CacheDir.temps? = _
    rw [show w.caches["cache"]? = some {} from ExtTreeMap.getElem?_insert_self]
    rfl
  obtain ⟨hwrite, -, hread, -⟩ := leaves_no_temps s w
  have hplan : r.plan w = .error (.io .notFound) := rfl
  have hfails : Ensures (s.write r) w (fun _ _ => False) fun e _ => e = .io .notFound := by
    rw [show s.write r = _ from write_caching ..]
    exact WriteRequest.withLocal_stream_spec rfl htemps
      (fun e h => (Except.error.inj (hplan.symm.trans h)).symm)
      fun _ _ _ h => absurd (hplan.symm.trans h) nofun
  refine ⟨?_, id, ((hread "k" (.caller "out") id).temps _).trans htemps⟩
  have hafter := (hwrite r).temps (.ofCache "cache")
  unfold World.after at hafter
  cases hrun : s.write r w with
  | ok _ _ => exact (hfails.ok_of_eq hrun).elim
  | error e v =>
    rw [hrun] at hafter
    exact ⟨v, congrArg (EStateM.Result.error · v) (hfails.error_of_eq hrun), hafter.trans htemps⟩

end Store

end BlobVault
