import BlobVault.Proofs.Digest
import BlobVault.Proofs.Eviction

/-!
# The directory of a cache

What each operation of a cache does to its entries. Everything that happens to a cache directory
leaves the rest of the world alone but for the clock: `FileCache.Turns` is that relation.

1. `entryName_inj`: distinct keys have distinct names.
2. `CacheLimits.Evicts`: what an eviction leaves of the entries.
3. `touch_hit`, `touch_miss`, `install_spec`, `insertFile_spec`, `remove_spec`, `clear_spec`,
   `evict_spec`: the entries after each operation.
4. `commit_eq`, `insertFile_eq`: to commit a temporary file is to install it, and to drop it if that
   fails.
-/

namespace BlobVault

open Std (ExtTreeMap)

/-! ## Names of entries -/

theorem Bytes.ofText_inj {a b : String} (h : Bytes.ofText a = .ofText b) : a = b := by
  unfold Bytes.ofText at h
  rw [String.toUTF8_eq_toByteArray, String.toUTF8_eq_toByteArray] at h
  exact String.toByteArray_inj.1 (ByteArray.ext (Array.toList_inj.1 h))

namespace FileCache

/-- Distinct keys have distinct entries. -/
theorem entryName_inj {a b : String} (h : entryName a = entryName b) : a = b :=
  Bytes.ofText_inj (Hex.encodeChars_inj (String.ofList_inj.1 h))

/-- The key is short enough for the name of a file. -/
def Fits (key : String) : Prop := (Bytes.ofText key).length ≤ 127

instance (key : String) : Decidable (Fits key) :=
  inferInstanceAs (Decidable ((Bytes.ofText key).length ≤ 127))

theorem length_entryName (key : String) :
    (entryName key).length = 2 * (Bytes.ofText key).length := by
  unfold entryName Hex.encode
  rw [String.length_ofList, Hex.length_encodeChars]

theorem fits_iff {key : String} : Fits key ↔ ¬ maxNameLength < (entryName key).length := by
  rw [length_entryName]
  unfold Fits maxNameLength
  omega

theorem entryName_ne_empty {key : String} (h : key ≠ "") : entryName key ≠ "" := by
  intro hempty
  exact h (entryName_inj (b := "") (hempty.trans (by decide)))

end FileCache

/-! ## The world around a cache -/

/-- What stands in the directory of a cache, by name. -/
abbrev CacheEntries := ExtTreeMap String CacheNode

/-- The node is a file. -/
def CacheNode.IsFile (node : CacheNode) : Prop :=
  ∃ content modified writable, node = .file content modified writable

namespace FileCache

variable {c : FileCache} {w v u : World} {es fs : CacheEntries}

/-- What stands in the directory of the cache. -/
def entries (c : FileCache) (w : World) : CacheEntries :=
  ((w.caches[c.dir]?).map CacheDir.entries).getD ∅

/-- The world at another time with other entries in the directory of the cache. -/
def refill (c : FileCache) (w : World) (now : Instant) (es : CacheEntries) :
    World :=
  match w.caches[c.dir]? with
  | some d => { w with now }.setCache c.dir { d with entries := es }
  | none => { w with now }

/-- The directory of the cache is there, with its directory for temporary files, and holds no
directory besides. -/
structure Intact (c : FileCache) (w : World) : Prop where
  temps : ∃ files, w.temps? c.tempDir = some files
  isFile : ∀ (name : String) (node : CacheNode), (c.entries w)[name]? = some node → node.IsFile

theorem Intact.dir (h : c.Intact w) : ∃ d, w.caches[c.dir]? = some d := by
  obtain ⟨files, hfiles⟩ := h.temps
  obtain ⟨d, hd, -⟩ := Option.bind_eq_some_iff.1 hfiles
  exact ⟨d, hd⟩

theorem entries_eq {d : CacheDir} (h : w.caches[c.dir]? = some d) : c.entries w = d.entries := by
  unfold FileCache.entries
  rw [h]
  rfl

/-- A directory has the same entries for every cache in it. -/
theorem entries_of_dir {d : FileCache} (h : c.dir = d.dir) (w : World) :
    c.entries w = d.entries w := by
  unfold FileCache.entries
  rw [h]

/-- A directory that was just made is intact, and has no entries. -/
theorem intact_of_new (h : w.caches[c.dir]? = some {}) : c.Intact w where
  temps := by
    refine ⟨∅, ?_⟩
    show (w.caches[c.dir]?).bind CacheDir.temps? = some ∅
    rw [h]
    rfl
  isFile name node hnode := by
    rw [entries_eq h] at hnode
    exact absurd (ExtTreeMap.getElem?_empty.symm.trans hnode) nofun

theorem refill_eq {d : CacheDir} (h : w.caches[c.dir]? = some d) (now : Instant)
    (es : CacheEntries) :
    c.refill w now es = { w with now }.setCache c.dir { d with entries := es } := by
  unfold refill
  rw [h]

theorem refill_self (w : World) : c.refill w w.now (c.entries w) = w := by
  unfold refill
  cases h : w.caches[c.dir]? with
  | none => rfl
  | some d =>
    rw [entries_eq h]
    show { w with caches := w.caches.insert c.dir d } = w
    rw [insert_of_getElem? h]

theorem caches_refill (w : World) (now : Instant) (es : CacheEntries) :
    (c.refill w now es).caches[c.dir]? =
      (w.caches[c.dir]?).map fun d => { d with entries := es } := by
  cases h : w.caches[c.dir]? with
  | none =>
    unfold refill
    rw [h]
    exact h
  | some d =>
    rw [refill_eq h]
    exact ExtTreeMap.getElem?_insert_self

theorem caches_refill_of_ne (w : World) (now : Instant) (es : CacheEntries)
    {dir : String} (hdir : c.dir ≠ dir) :
    (c.refill w now es).caches[dir]? = w.caches[dir]? := by
  unfold refill
  split
  · exact getElem?_insert_of_ne hdir
  · rfl

/-- A world with other entries is the world itself up to its caches and its clock. -/
theorem refill_rest (w : World) (now : Instant) (es : CacheEntries) :
    c.refill w now es =
      { w with now := now, caches := (c.refill w now es).caches } := by
  unfold refill
  split <;> rfl

theorem refill_refill (w : World) (now later : Instant)
    (es fs : CacheEntries) :
    c.refill (c.refill w now es) later fs = c.refill w later fs := by
  cases h : w.caches[c.dir]? with
  | none =>
    unfold refill
    simp only [h]
  | some d =>
    have hd : (c.refill w now es).caches[c.dir]? = some { d with entries := es } := by
      rw [caches_refill, h]
      rfl
    rw [refill_eq hd, refill_eq h, refill_eq h]
    unfold World.setCache
    simp only [insert_insert]

theorem entries_refill {d : CacheDir} (h : w.caches[c.dir]? = some d) (now : Instant)
    (es : CacheEntries) : c.entries (c.refill w now es) = es := by
  unfold FileCache.entries
  rw [caches_refill, h]
  rfl

theorem temps?_refill (w : World) (now : Instant) (es : CacheEntries)
    (dir : TempDir) : (c.refill w now es).temps? dir = w.temps? dir := by
  cases dir with
  | scratch name =>
    show (c.refill w now es).scratch[name]? = _
    rw [refill_rest]
    rfl
  | ofCache dir =>
    show (c.refill w now es).caches[dir]?.bind _ = w.caches[dir]?.bind _
    by_cases hdir : c.dir = dir
    · subst hdir
      rw [caches_refill]
      cases w.caches[c.dir]? <;> rfl
    · rw [caches_refill_of_ne w now es hdir]

theorem container_refill (w : World) (now : Instant) (es : CacheEntries)
    (name : String) : (c.refill w now es).container name = w.container name := by
  rw [refill_rest]
  rfl

/-- Containers and memories are no concern of the entries. -/
theorem refill_shared (w : World) (containers : ExtTreeMap String Container)
    (memories : ExtTreeMap String Blobs) (now : Instant) (es : CacheEntries) :
    c.refill { w with containers, memories } now es =
      { c.refill w now es with containers, memories } := by
  unfold refill
  dsimp only
  split <;> rfl

/-- Looking before the entries change is looking after it. -/
theorem refill_of_looks (h : w.Looks v) (now : Instant) (es : CacheEntries) :
    (c.refill w now es).Looks (c.refill v now es) := by
  refine ⟨?_, fun name => ?_⟩
  · rw [h.rest]
    unfold refill
    dsimp only
    split <;> rfl
  · rw [container_refill, container_refill]
    exact h.containers name

/-- What is left of the world when a cache was used: only the clock, the counts of faults and the
entries of the cache have changed, and the entries are the given ones. -/
def Turns (c : FileCache) (w : World) (es : CacheEntries) (v : World) : Prop :=
  ∃ now, (c.refill w now es).Looks v

namespace Turns

theorem of_looks (h : w.Looks v) : c.Turns w (c.entries w) v :=
  ⟨w.now, by rwa [refill_self]⟩

theorem refill (w : World) (now : Instant) (es : CacheEntries) :
    c.Turns w es (c.refill w now es) := ⟨now, .refl _⟩

theorem trans (h : c.Turns w es v) (h' : c.Turns v fs u) : c.Turns w fs u := by
  obtain ⟨now, h⟩ := h
  obtain ⟨later, h'⟩ := h'
  refine ⟨later, ?_⟩
  have := refill_of_looks (c := c) h later fs
  rw [refill_refill] at this
  exact this.trans h'

theorem looks (h : c.Turns w es v) (h' : v.Looks u) : c.Turns w es u := by
  obtain ⟨now, h⟩ := h
  exact ⟨now, h.trans h'⟩

theorem entries (h : c.Turns w es v) (hdir : ∃ d, w.caches[c.dir]? = some d) :
    c.entries v = es := by
  obtain ⟨now, h⟩ := h
  obtain ⟨d, hd⟩ := hdir
  unfold FileCache.entries
  rw [h.rest]
  exact entries_refill hd now es

theorem temps? (h : c.Turns w es v) (dir : TempDir) : v.temps? dir = w.temps? dir := by
  obtain ⟨now, h⟩ := h
  rw [h.temps?, temps?_refill]

theorem containers (h : c.Turns w es v) (name : String) :
    (w.container name).Looks (v.container name) := by
  obtain ⟨now, h⟩ := h
  rw [← container_refill (c := c) w now es]
  exact h.containers name

theorem follows (h : c.Turns w es v) : w.Follows v := fun name => (h.containers name).1

/-- Memories, scratch directories and the files of the caller are not concerned. -/
theorem rest (h : c.Turns w es v) :
    v.memories = w.memories ∧ v.scratch = w.scratch ∧ v.files = w.files ∧ v.taken = w.taken := by
  obtain ⟨now, h⟩ := h
  rw [h.rest, refill_rest]
  exact ⟨rfl, rfl, rfl, rfl⟩

theorem caches_of_ne (h : c.Turns w es v) {dir : String} (hdir : c.dir ≠ dir) :
    v.caches[dir]? = w.caches[dir]? := by
  obtain ⟨now, h⟩ := h
  rw [h.rest]
  exact caches_refill_of_ne w now es hdir

theorem writable (h : c.Turns w es v) {path : LocalPath} (hpath : path.IsOutside)
    (hw : w.Writable path) : v.Writable path := by
  cases path with
  | caller name =>
    unfold World.Writable
    rw [h.rest.2.2.1]
    exact hw
  | detached => exact hw.elim
  | temp dir serial => exact hpath.elim
  | entry dir name => exact hpath.elim

theorem writable_of (h : c.Turns w es v) {path : LocalPath} (hpath : path.IsOutside)
    (hv : v.Writable path) : w.Writable path := by
  cases path with
  | caller name =>
    unfold World.Writable
    rw [← h.rest.2.2.1]
    exact hv
  | detached => exact hv.elim
  | temp dir serial => exact hpath.elim
  | entry dir name => exact hpath.elim

/-- The cache is intact still if its entries are files still. -/
theorem intact (h : c.Turns w es v) (hw : c.Intact w)
    (hes : ∀ (name : String) (node : CacheNode), es[name]? = some node → node.IsFile) :
    c.Intact v := by
  refine ⟨?_, ?_⟩
  · rw [h.temps?]
    exact hw.temps
  · rw [h.entries hw.dir]
    exact hes

end Turns

/-- Some entries are among others. -/
def Thins (es fs : CacheEntries) : Prop :=
  ∀ (name : String) (node : CacheNode), fs[name]? = some node → es[name]? = some node

/-- Some entries are among others but for one of them, which holds some content, and may be written
to or not. -/
structure Adds (es : CacheEntries) (name : String) (content : Bytes) (fs : CacheEntries)
    (writable : Bool := true) : Prop where
  self : ∃ t, fs[name]? = some (.file content t writable)
  others : ∀ other, name ≠ other → ∀ node : CacheNode, fs[other]? = some node →
    es[other]? = some node

theorem adds_insert (es : CacheEntries) (name : String) (content : Bytes) (t : Instant)
    (writable : Bool) :
    Adds es name content (es.insert name (.file content t writable)) writable := by
  refine ⟨⟨t, ExtTreeMap.getElem?_insert_self⟩, fun other hne node h => ?_⟩
  rwa [getElem?_insert_of_ne hne] at h

theorem Adds.isFile {name : String} {content : Bytes} {writable : Bool}
    (h : Adds es name content fs writable)
    (hes : ∀ (name : String) (node : CacheNode), es[name]? = some node → node.IsFile)
    (other : String) (node : CacheNode) (hnode : fs[other]? = some node) : node.IsFile := by
  by_cases hne : name = other
  · obtain ⟨t, ht⟩ := h.self
    subst hne
    rw [ht] at hnode
    exact ⟨content, t, writable, (Option.some.inj hnode).symm⟩
  · exact hes other node (h.others other hne node hnode)

end FileCache

/-- What an eviction may leave of some entries: others are gone, but not the one to keep, and those
that are gone were files of the minimum age or more, used no later than any that stays. -/
structure CacheLimits.Evicts (l : CacheLimits) (now : Instant) (keep? : Option String)
    (es fs : CacheEntries) : Prop where
  thins : FileCache.Thins es fs
  keeps : ∀ name, keep? = some name → fs[name]? = es[name]?
  oldest : ∀ (name : String) (node : CacheNode), es[name]? = some node → fs[name]? = none →
    ∃ content used writable, node = .file content used writable ∧
      l.minAge ≤ max 0 (now - used) ∧
      ∀ (other : String) (content' : Bytes) (used' : Instant) (writable' : Bool),
        fs[other]? = some (.file content' used' writable') → keep? ≠ some other → used ≤ used'

/-- What the files of a directory are after an eviction. -/
theorem CacheDir.evicts (d : CacheDir) (l : CacheLimits) (now : Instant) (keep? : Option String) :
    l.Evicts now keep? d.entries
      (d.eraseAll (evict l now keep? (d.filesAt now)).2).entries where
  thins name node hnode := by
    rw [d.getElem?_eraseAll] at hnode
    split at hnode
    · exact absurd hnode nofun
    · exact hnode
  keeps := by
    rintro name rfl
    rw [d.getElem?_eraseAll, if_neg fun hmem => (mem_evict hmem).1 rfl]
  oldest name node hnode hgone := by
    rw [d.getElem?_eraseAll] at hgone
    split at hgone
    swap
    · rw [hnode] at hgone
      exact absurd hgone nofun
    rename_i hmem
    obtain ⟨-, f, hf, rfl, hold, holdest⟩ := mem_evict hmem
    obtain ⟨content, writable, hfile, -⟩ := mem_files.1 (mem_filesAt.1 hf)
    refine ⟨content, f.modified, writable, Option.some.inj (hnode.symm.trans hfile), ?_, ?_⟩
    · unfold CachedFile.isYoung at hold
      rwa [decide_eq_true_iff, not_lt] at hold
    · intro other content' used' writable' hother hkeep
      rw [d.getElem?_eraseAll] at hother
      split at hother
      · exact absurd hother nofun
      · rename_i hstays
        exact holdest ⟨other, content'.length, used'⟩
          (mem_filesAt.2 (mem_files.2 ⟨content', writable', hother, rfl⟩)) hstays hkeep

namespace FileCache

variable {c : FileCache} {w v u : World} {es fs : CacheEntries}

/-! ## Looking up -/

theorem getElem?_entries (c : FileCache) (w : World) (name : String) :
    (c.entries w)[name]? = w.caches[c.dir]?.bind (·.entries[name]?) := by
  unfold entries
  cases w.caches[c.dir]? with
  | none => exact ExtTreeMap.getElem?_empty
  | some d => rfl

/-- What is read at the place of an entry is the content of a file that is there. -/
theorem read_entry_iff {name : String} {content : Bytes} :
    w.read (.entry c.dir name) = .ok content ↔
      ∃ t writable, (c.entries w)[name]? = some (.file content t writable) := by
  unfold World.read
  dsimp only
  rw [c.getElem?_entries]
  cases w.caches[c.dir]?.bind (·.entries[name]?) with
  | none => simp
  | some node => cases node <;> simp

/-- An entry holds its content. -/
theorem read_entry {name : String} {content : Bytes} {t : Instant} {writable : Bool}
    (h : (c.entries w)[name]? = some (.file content t writable)) :
    w.read (.entry c.dir name) = .ok content := read_entry_iff.2 ⟨t, writable, h⟩

theorem isReadOnly_entry {name : String} {content : Bytes} {t : Instant} {writable : Bool}
    (h : (c.entries w)[name]? = some (.file content t writable)) :
    w.isReadOnly (.entry c.dir name) = !writable := by
  rw [getElem?_entries] at h
  unfold World.isReadOnly
  simp only [h]

variable {key : String}

/-- The entry of the key is there, and cannot be opened. -/
def Locked (c : FileCache) (w : World) (key : String) : Prop :=
  ∃ content t, (c.entries w)[entryName key]? = some (.file content t false)

/-- Every entry can be opened. -/
def Unlocked (c : FileCache) (w : World) : Prop :=
  ∀ (name : String) (content : Bytes) (t : Instant),
    (c.entries w)[name]? ≠ some (.file content t false)

theorem Unlocked.not_locked (h : c.Unlocked w) (key : String) : ¬ c.Locked w key :=
  fun ⟨content, t, hnode⟩ => h _ content t hnode

theorem Unlocked.thin (h : c.Unlocked w) (hthin : Thins (c.entries w) (c.entries v)) :
    c.Unlocked v :=
  fun name content t hnode => h name content t (hthin name _ hnode)

theorem Unlocked.add {name : String} {content : Bytes} (h : c.Unlocked w)
    (hadds : Adds (c.entries w) name content (c.entries v)) : c.Unlocked v := by
  intro other bytes t hnode
  by_cases hname : name = other
  · obtain ⟨used, hentry⟩ := hadds.self
    rw [← hname, hentry] at hnode
    exact absurd (CacheNode.file.inj (Option.some.inj hnode)).2.2 nofun
  · exact h other bytes t (hadds.others other hname _ hnode)

/-- Where the entry of a key is not locked, there is none or one that can be opened. -/
theorem Intact.entry (hw : c.Intact w) (hopen : ¬ c.Locked w key) :
    (c.entries w)[entryName key]? = none ∨
      ∃ content t, (c.entries w)[entryName key]? = some (.file content t) := by
  cases hnode : (c.entries w)[entryName key]? with
  | none => exact .inl rfl
  | some node =>
    obtain ⟨content, t, writable, rfl⟩ := hw.isFile _ node hnode
    cases writable with
    | true => exact .inr ⟨content, t, rfl⟩
    | false => exact absurd ⟨content, t, hnode⟩ hopen

theorem touch_miss (hw : c.Intact w) (hfits : Fits key) (hne : key ≠ "")
    (hmiss : (c.entries w)[entryName key]? = none) : c.touch key w = .ok none w := by
  obtain ⟨d, hd⟩ := hw.dir
  rw [entries_eq hd] at hmiss
  unfold touch
  dsimp only
  rw [run_get_bind, hd]
  dsimp only
  rw [if_neg (fits_iff.1 hfits), if_neg (entryName_ne_empty hne), hmiss]
  rfl

theorem touch_hit (hw : c.Intact w) (hfits : Fits key) (hne : key ≠ "") {content : Bytes}
    {t : Instant} (hhit : (c.entries w)[entryName key]? = some (.file content t)) :
    c.touch key w = .ok (some (.entry c.dir (entryName key)))
      (c.refill w (w.now + 1) ((c.entries w).insert (entryName key) (.file content w.now))) := by
  obtain ⟨d, hd⟩ := hw.dir
  rw [refill_eq hd]
  rw [entries_eq hd] at hhit ⊢
  unfold touch
  dsimp only
  rw [run_get_bind, hd]
  dsimp only
  rw [if_neg (fits_iff.1 hfits), if_neg (entryName_ne_empty hne), hhit]
  rfl

/-- An entry that may not be written to is an error, though it is there. -/
theorem touch_locked (hw : c.Intact w) (hfits : Fits key) (hne : key ≠ "")
    (hlocked : c.Locked w key) : c.touch key w = .error (.io .permissionDenied) w := by
  obtain ⟨d, hd⟩ := hw.dir
  obtain ⟨content, t, hhit⟩ := hlocked
  rw [entries_eq hd] at hhit
  unfold touch
  dsimp only
  rw [run_get_bind, hd]
  dsimp only
  rw [if_neg (fits_iff.1 hfits), if_neg (entryName_ne_empty hne), hhit]
  rfl

/-- A key that is too long for a file name is an error, not a miss. -/
theorem touch_long (hw : c.Intact w) (hlong : ¬ Fits key) :
    c.touch key w = .error (.io .invalidFilename) w := by
  obtain ⟨d, hd⟩ := hw.dir
  unfold touch
  dsimp only
  rw [run_get_bind, hd]
  dsimp only
  rw [if_pos (Classical.not_not.1 fun h => hlong (fits_iff.2 h))]
  rfl

/-- The empty key stands for the directory itself. -/
theorem touch_empty (hw : c.Intact w) : c.touch "" w = .error (.io .isADirectory) w := by
  obtain ⟨d, hd⟩ := hw.dir
  have hname : entryName "" = "" := by decide
  unfold touch
  dsimp only
  rw [run_get_bind, hd, hname]
  rfl

/-! ## Making entries -/

variable {files : TempFiles} {serial : Nat} {content : Bytes} {writable : Bool}

/-- The directory of a cache with a temporary file in it. -/
theorem caches_putTemp (hfiles : w.temps? c.tempDir = some files) (serial : Nat) (content : Bytes)
    (writable : Bool) :
    ∃ d, w.caches[c.dir]? = some d ∧
      w.putTemp c.tempDir serial content writable =
        w.setCache c.dir { d with temps? := some (files.insert serial { content, writable }) } ∧
      (w.putTemp c.tempDir serial content writable).caches[c.dir]? =
        some { d with temps? := some (files.insert serial { content, writable }) } := by
  obtain ⟨d, hd, -⟩ := Option.bind_eq_some_iff.1 hfiles
  have hput : w.putTemp c.tempDir serial content writable =
      w.setCache c.dir { d with temps? := some (files.insert serial { content, writable }) } := by
    unfold World.putTemp
    rw [hfiles]
    show World.setTemps w (.ofCache c.dir) _ = _
    unfold World.setTemps
    simp only [hd]
  refine ⟨d, hd, hput, ?_⟩
  rw [hput]
  exact ExtTreeMap.getElem?_insert_self

theorem publish_ok (hw : c.Intact w) (hfiles : w.temps? c.tempDir = some files)
    (hfree : files[serial]? = none) (hfits : Fits key) (hne : key ≠ "") :
    c.publish key c.tempDir serial (w.putTemp c.tempDir serial content writable) =
      .ok () (c.refill w (w.now + 1)
        ((c.entries w).insert (entryName key) (.file content w.now writable))) := by
  obtain ⟨d, hd, hput, hcaches⟩ := caches_putTemp hfiles serial content writable
  have hentry : ∀ node, d.entries[entryName key]? = some node → node.IsFile := by
    rw [← entries_eq hd]
    exact hw.isFile _
  have hmode : (!(w.putTemp c.tempDir serial content writable).isReadOnly
      (.temp c.tempDir serial)) = writable := by
    rw [World.isReadOnly_putTemp hfiles, Bool.not_not]
  -- with the temporary file gone, only the entry is new
  have hfinal : ∀ es, ({ w.putTemp c.tempDir serial content writable with
      now := w.now + 1 }.setCache c.dir
        { d with entries := es, temps? := some (files.insert serial { content, writable }) }).dropTemp
      c.tempDir serial = c.refill w (w.now + 1) es := by
    intro es
    have htemps := (temps?_refill (c := c) w (w.now + 1) es c.tempDir).trans hfiles
    rw [← World.dropTemp_putTemp htemps hfree content writable]
    congr 1
    obtain ⟨d', hd', hput', -⟩ := caches_putTemp htemps serial content writable
    rw [caches_refill, hd] at hd'
    rw [hput', ← Option.some.inj hd', hput, refill_eq hd]
    unfold World.setCache
    simp only [insert_insert]
  unfold publish
  dsimp only
  rw [run_bind_ok (fileContent_ok (World.read_putTemp hfiles content)), run_get_bind, hcaches]
  dsimp only
  rw [if_neg (fits_iff.1 hfits), if_neg (entryName_ne_empty hne), entries_eq hd, hmode, ← hfinal]
  have hnow : (w.putTemp c.tempDir serial content writable).now = w.now := by
    rw [hput]
    rfl
  cases hnode : d.entries[entryName key]? with
  | none =>
    show EStateM.Result.ok _ _ = _
    rw [← hnow]
  | some node =>
    obtain ⟨old, t, _, rfl⟩ := hentry node hnode
    show EStateM.Result.ok _ _ = _
    rw [← hnow]

theorem publish_long (hfiles : w.temps? c.tempDir = some files) (hlong : ¬ Fits key) :
    c.publish key c.tempDir serial (w.putTemp c.tempDir serial content writable) =
      .error (.io .invalidFilename) (w.putTemp c.tempDir serial content writable) := by
  obtain ⟨d, -, -, hcaches⟩ := caches_putTemp hfiles serial content writable
  unfold publish
  dsimp only
  rw [run_bind_ok (fileContent_ok (World.read_putTemp hfiles content)), run_get_bind, hcaches]
  dsimp only
  rw [if_pos (Classical.not_not.1 fun h => hlong (fits_iff.2 h))]
  rfl

/-- An eviction leaves of the entries what it may. -/
theorem evictExcept_spec (keep? : Option String) {d : CacheDir} (hd : w.caches[c.dir]? = some d) :
    ∃ stats es, c.evictExcept keep? w = .ok stats (c.refill w w.now es) ∧
      c.limits.Evicts w.now keep? (c.entries w) es := by
  rw [entries_eq hd]
  refine ⟨(BlobVault.evict c.limits w.now keep? (d.filesAt w.now)).1,
    (d.eraseAll (BlobVault.evict c.limits w.now keep? (d.filesAt w.now)).2).entries, ?_,
    d.evicts ..⟩
  unfold evictExcept
  rw [run_get_bind, hd, refill_eq hd]
  rfl

/-- Where there is no directory, an eviction fails. -/
theorem evictExcept_leaves (c : FileCache) (keep? : Option String) (w : World) :
    Ensures (c.evictExcept keep?) w
      (fun _ v => v = c.refill w w.now (c.entries v) ∧
        c.limits.Evicts w.now keep? (c.entries w) (c.entries v))
      fun _ v => v = w := by
  cases hd : w.caches[c.dir]? with
  | none =>
    refine Ensures.of_error (e := .io .notFound) ?_ rfl
    unfold evictExcept
    rw [run_get_bind, hd]
    rfl
  | some d =>
    obtain ⟨stats, es, hrun, hevicts⟩ := evictExcept_spec keep? hd
    refine Ensures.of_ok hrun ?_
    rw [entries_refill hd]
    exact ⟨rfl, hevicts⟩

/-- Moving a temporary file to the place of an entry takes it away from its own. -/
theorem publish_spec (c : FileCache) (key : String) (dir : TempDir) (serial : Nat) (w : World) :
    Ensures (c.publish key dir serial) w
      (fun _ v => ∃ content, w.read (.temp dir serial) = .ok content ∧
        (∃ d, w.caches[c.dir]? = some d) ∧
        v = (c.refill w (w.now + 1) ((c.entries w).insert (entryName key)
          (.file content w.now (!w.isReadOnly (.temp dir serial))))).dropTemp dir serial)
      fun _ v => v = w := by
  unfold publish
  cases hread : w.read (.temp dir serial) with
  | error cause => exact Ensures.bind_error (fileContent_error hread) rfl
  | ok content =>
    refine Ensures.bind_ok (fileContent_ok hread) (Ensures.bind_ok (t := w) (a := w) rfl ?_)
    cases hd : w.caches[c.dir]? with
    | none => exact Ensures.throw rfl
    | some d =>
      dsimp only
      split
      · exact Ensures.bind_error rfl rfl
      split
      · exact Ensures.bind_error rfl rfl
      split
      · exact Ensures.bind_error rfl rfl
      · refine Ensures.of_ok (a := ()) ?_ ⟨content, rfl, ⟨d, rfl⟩, rfl⟩
        rw [refill_eq hd, entries_eq hd]
        rfl

/-- Moves a temporary file to the place of an entry, then evicts others. -/
def install (c : FileCache) (key : String) (path : LocalPath) : Action LocalPath := do
  c.place key path
  attempt (do let _ ← c.evictExcept (some (entryName key)))
  return .entry c.dir (entryName key)

/-- Committing is the last that the owner of a temporary file does with it: only if nothing was
moved, the file is still there to go with the owner. -/
theorem commit_eq (c : FileCache) (key : String) (path : LocalPath) :
    c.commit key { path } = TempGuard.close { path } (c.install key path) := by
  refine TempGuard.persist_bind_eq_close _ fun w v hplace => ?_
  cases path with
  | caller _ => exact absurd hplace nofun
  | detached => exact absurd hplace nofun
  | entry _ _ => exact absurd hplace nofun
  | temp dir serial =>
    have hgone : (v.temps? dir).bind (·[serial]?) = none := by
      obtain ⟨content, -, -, rfl⟩ := (c.publish_spec key dir serial w).ok_of_eq hplace
      exact World.temps?_dropTemp _ dir serial
    have hevict : Ensures (c.evictExcept (some (entryName key))) v
        (fun _ x => (x.temps? dir).bind (·[serial]?) = none)
        fun _ x => (x.temps? dir).bind (·[serial]?) = none := by
      refine (c.evictExcept_leaves _ v).mono ?_ ?_
      · rintro _ x ⟨hx, -⟩
        rw [hx, temps?_refill]
        exact hgone
      · rintro _ x rfl
        exact hgone
    exact Ensures.bind hevict.attempt fun _ x hx => Ensures.pure (World.dropTemp_of_missing hx)

/-- A copy of a local file becomes an entry in the scope of a temporary file. -/
theorem insertFile_eq (c : FileCache) (key : String) (source : LocalPath) :
    c.insertFile key source =
      withTemp c.tempDir fun path => (do copyFile source path; c.install key path) := by
  unfold insertFile withTemp TempGuard.create
  simp only [bind_assoc, pure_bind]
  refine bind_congr fun serial => ?_
  rw [← TempGuard.hold_bind_close]
  exact bind_congr fun _ => c.commit_eq key _

/-- Committing a temporary file makes it the entry of its key, and perhaps evicts others. -/
theorem install_spec (hw : c.Intact w) (hfiles : w.temps? c.tempDir = some files)
    (hfree : files[serial]? = none) (hfits : Fits key) (hne : key ≠ "") (content : Bytes)
    (writable : Bool := true) :
    ∃ v es, c.install key (.temp c.tempDir serial) (w.putTemp c.tempDir serial content writable) =
        .ok (.entry c.dir (entryName key)) v ∧
      c.Turns w es v ∧ Adds (c.entries w) (entryName key) content es writable := by
  have hadds := adds_insert (c.entries w) (entryName key) content w.now writable
  obtain ⟨u, hpublish, hu⟩ : ∃ u, c.publish key c.tempDir serial
      (w.putTemp c.tempDir serial content writable) = .ok () u ∧
        c.Turns w ((c.entries w).insert (entryName key) (.file content w.now writable)) u :=
    ⟨_, publish_ok hw hfiles hfree hfits hne, Turns.refill _ _ _⟩
  obtain ⟨d, hd⟩ := (hu.intact hw (hadds.isFile hw.isFile)).dir
  obtain ⟨stats, es, hevict, hthins, hkeep, -⟩ := evictExcept_spec (some (entryName key)) hd
  rw [hu.entries hw.dir] at hthins hkeep
  refine ⟨c.refill u u.now es, es, ?_, hu.trans (Turns.refill u u.now es), ?_, ?_⟩
  · have hattempt : attempt (do let _ ← c.evictExcept (some (entryName key))) u =
        .ok () (c.refill u u.now es) := by
      unfold attempt
      rw [run_bind_ok hevict]
      rfl
    unfold install
    rw [run_bind_ok (show c.place key (.temp c.tempDir serial) _ = _ from hpublish), run_bind_ok hattempt]
    rfl
  · obtain ⟨t, ht⟩ := hadds.self
    exact ⟨t, (hkeep _ rfl).trans ht⟩
  · exact fun other hother node hnode => hadds.others other hother node (hthins other node hnode)

theorem install_long (hfiles : w.temps? c.tempDir = some files) (hlong : ¬ Fits key) :
    c.install key (.temp c.tempDir serial) (w.putTemp c.tempDir serial content writable) =
      .error (.io .invalidFilename) (w.putTemp c.tempDir serial content writable) := by
  unfold install
  exact run_bind_error (publish_long hfiles hlong) _

/-- A local file is copied into the temporary file made for it. -/
theorem copyFile_putTemp {source : LocalPath} {dir : TempDir} (hfiles : w.temps? dir = some files)
    (hsource : ¬ source.IsTemporary) (hread : w.read source = .ok content) :
    copyFile source (.temp dir serial) (w.putTemp dir serial []) =
      .ok () (w.putTemp dir serial content (!w.isReadOnly source)) := by
  have hcontent := (w.read_putTemp_of_not_isTemporary hsource dir serial []).trans hread
  rw [copyFile_temp hcontent (World.writable_putTemp hfiles serial []),
    w.isReadOnly_putTemp_of_not_isTemporary hsource, World.putTemp_putTemp]

/-- Keeping a copy of a local file makes an entry of its content, which may be written to if the
file may, or fails and changes nothing. -/
theorem insertFile_spec (hw : c.Intact w) (hne : key ≠ "") {source : LocalPath}
    (hsource : ¬ source.IsTemporary) :
    Ensures (c.insertFile key source) w
      (fun _ v => Fits key ∧ ∃ content es, w.read source = .ok content ∧ c.Turns w es v ∧
        Adds (c.entries w) (entryName key) content es (!w.isReadOnly source))
      fun _ v => v = w ∧ (¬ Fits key ∨ ∃ e, w.read source = .error e) := by
  obtain ⟨files, hfiles⟩ := hw.temps
  rw [insertFile_eq]
  refine withTemp_spec hfiles fun serial hfree => ?_
  have hdrop : ∀ content writable,
      (w.putTemp c.tempDir serial content writable).dropTemp c.tempDir serial = w :=
    fun content writable => World.dropTemp_putTemp hfiles hfree content writable
  cases hcontent : w.read source with
  | error e =>
    have hread := (w.read_putTemp_of_not_isTemporary hsource c.tempDir serial []).trans hcontent
    refine Ensures.bind_error (run_bind_error (fileContent_error hread) _) ?_
    exact ⟨hdrop [] true, .inr ⟨e, rfl⟩⟩
  | ok content =>
    refine Ensures.bind_ok (copyFile_putTemp hfiles hsource hcontent) ?_
    by_cases hfits : Fits key
    · obtain ⟨v, es, hinstall, hturns, hadds⟩ :=
        install_spec hw hfiles hfree hfits hne content (!w.isReadOnly source)
      refine Ensures.of_ok hinstall ⟨hfits, content, es, rfl, ?_, hadds⟩
      rw [World.dropTemp_of_free ((hturns.temps? _).trans hfiles) hfree]
      exact hturns
    · exact Ensures.of_error (install_long hfiles hfits) ⟨hdrop content _, .inl hfits⟩

/-! ## Taking entries away -/

/-- Removing a key takes its entry away and no other. -/
theorem remove_entries (hw : c.Intact w) (key : String) :
    ∃ v es, c.remove key w = .ok () v ∧ v.now = w.now ∧ c.Turns w es v ∧
      ∀ name : String, es[name]? =
        if name = entryName key then none else (c.entries w)[name]? := by
  obtain ⟨d, hd⟩ := hw.dir
  cases hnode : d.entries[entryName key]? with
  | none =>
    refine ⟨w, c.entries w, ?_, rfl, .of_looks (.refl w), fun name => ?_⟩
    · unfold remove
      rw [run_get_bind, hd]
      dsimp only
      rw [hnode]
      rfl
    · split
      · rename_i hname
        rw [hname, entries_eq hd, hnode]
      · rfl
  | some node =>
    obtain ⟨content, t, _, rfl⟩ := hw.isFile (entryName key) node (by rw [entries_eq hd, hnode])
    refine ⟨c.refill w w.now (d.eraseAll [entryName key]).entries, _, ?_, ?_, .refill _ _ _, ?_⟩
    · unfold remove
      rw [run_get_bind, hd]
      dsimp only
      rw [hnode, refill_eq hd]
      rfl
    · rw [refill_rest]
    · intro name
      simp only [d.getElem?_eraseAll, List.mem_singleton, entries_eq hd]

theorem remove_spec (hw : c.Intact w) (key : String) :
    ∃ v es, c.remove key w = .ok () v ∧ v.now = w.now ∧ c.Turns w es v ∧
      Thins (c.entries w) es ∧ es[entryName key]? = none := by
  obtain ⟨v, es, hrun, hnow, hturns, hes⟩ := remove_entries hw key
  refine ⟨v, es, hrun, hnow, hturns, fun name node hnode => ?_, (hes _).trans (if_pos rfl)⟩
  rw [hes] at hnode
  split at hnode
  · exact absurd hnode nofun
  · exact hnode

theorem clear_spec (hw : c.Intact w) :
    ∃ v es, c.clear w = .ok () v ∧ v.now = w.now ∧ c.Turns w es v ∧
      ∀ name : String, es[name]? = none := by
  obtain ⟨d, hd⟩ := hw.dir
  refine ⟨c.refill w w.now d.cleared.entries, d.cleared.entries, ?_, ?_, .refill _ _ _, ?_⟩
  · unfold clear
    rw [run_get_bind, hd, refill_eq hd]
    rfl
  · rw [refill_rest]
  · intro name
    unfold CacheDir.cleared
    rw [d.getElem?_eraseAll]
    split
    · rfl
    · rename_i hmem
      cases hnode : d.entries[name]? with
      | none => rfl
      | some node =>
        obtain ⟨content, t, writable, rfl⟩ := hw.isFile name node (by rw [entries_eq hd, hnode])
        have hfile : CachedFile.mk name content.length t ∈ d.files :=
          CacheDir.mem_files.2 ⟨content, writable, hnode, rfl⟩
        exact absurd (List.mem_map.2 ⟨_, hfile, rfl⟩) hmem

theorem evict_spec (hw : c.Intact w) :
    ∃ stats v es, c.evict w = .ok stats v ∧ c.Turns w es v ∧ Thins (c.entries w) es := by
  obtain ⟨d, hd⟩ := hw.dir
  obtain ⟨stats, es, hrun, hevicts⟩ := evictExcept_spec none hd
  exact ⟨stats, _, es, hrun, .refill _ _ _, hevicts.thins⟩

end FileCache

end BlobVault
