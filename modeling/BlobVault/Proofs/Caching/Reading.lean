import BlobVault.Proofs.Owners
import BlobVault.Proofs.PlainStore
import BlobVault.Store.Copy

/-!
# Reading through a cache

A read of a key without a range gets the cached bytes of the key, or else what the store behind the
cache holds (`FileCache.serves?`), and makes an entry of them. It does not matter whether the two
agree, nor who made the entry, as long as the entry can be opened.

1. `fetch_spec`: a hit marks the entry as used, a miss makes an entry of the store's bytes.
2. `readInto_spec`, `stream_spec`, `localFile_spec`, `contains_spec`: what reads deliver.
3. `fetch_locked` and the like: an entry that cannot be opened makes all of them fail.
-/

namespace BlobVault

namespace FileCache

variable {c : FileCache} {p : PlainStore} {w v : World} {key : String}

/-- What the entry of a key holds. -/
def entry? (c : FileCache) (w : World) (key : String) : Option Bytes :=
  match (c.entries w)[entryName key]? with
  | some (.file content _ _) => some content
  | _ => none

/-- What a read of a key gets: what the cache has, or else what the store behind it holds. -/
def serves? (c : FileCache) (p : PlainStore) (w : World) (key : String) : Option Bytes :=
  (c.entry? w key).or (p.hold? w key)

theorem entry?_eq_some {content : Bytes} {t : Instant} {writable : Bool}
    (h : (c.entries w)[entryName key]? = some (.file content t writable)) :
    c.entry? w key = some content := by
  unfold entry?
  rw [h]

theorem entry?_eq_none (h : (c.entries w)[entryName key]? = none) : c.entry? w key = none := by
  unfold entry?
  rw [h]

/-- A directory that was just made has no entry. -/
theorem entry?_of_new (h : w.caches[c.dir]? = some {}) (key : String) : c.entry? w key = none := by
  apply entry?_eq_none
  rw [entries_eq h]
  exact Std.ExtTreeMap.getElem?_empty

theorem not_locked_of_miss (h : c.entry? w key = none) : ¬ c.Locked w key := by
  rintro ⟨content, t, hnode⟩
  exact absurd (h.symm.trans (entry?_eq_some hnode)) nofun

theorem entry?_of_entries (h : c.entries v = c.entries w) (key : String) :
    c.entry? v key = c.entry? w key := by
  unfold entry?
  rw [h]

/-- Without an entry, what the store holds is served. -/
theorem serves?_of_miss (h : c.entry? w key = none) : c.serves? p w key = p.hold? w key := by
  unfold serves?
  rw [h, Option.none_or]

/-- What is left of the world when a look-up has made sure that there is an entry. -/
def Fetched (c : FileCache) (w : World) (key : String) (content : Bytes) (v : World) : Prop :=
  ∃ es, c.Turns w es v ∧ Adds (c.entries w) (entryName key) content es

theorem Fetched.read {content : Bytes} (h : c.Fetched w key content v) (hw : c.Intact w) :
    v.read (.entry c.dir (entryName key)) = .ok content := by
  obtain ⟨es, hturns, hadds⟩ := h
  obtain ⟨t, ht⟩ := hadds.self
  rw [← hturns.entries hw.dir] at ht
  exact read_entry ht

/-- An entry that was looked up can be opened. -/
theorem Fetched.isReadOnly {content : Bytes} (h : c.Fetched w key content v) (hw : c.Intact w) :
    v.isReadOnly (.entry c.dir (entryName key)) = false := by
  obtain ⟨es, hturns, hadds⟩ := h
  obtain ⟨t, ht⟩ := hadds.self
  rw [← hturns.entries hw.dir] at ht
  exact isReadOnly_entry ht

section

variable (name : String) (hw : c.Intact w) (hp : p.Honest w)
  (hkey : ByteRange.splitKey key = (key, none)) (hne : key ≠ "") (hfits : Fits key)
  (hopen : ¬ c.Locked w key)

include hw hp hkey hne hfits hopen

/-- A look-up gives the entry of a key, made of what the store holds if there was none. -/
theorem fetch_spec :
    Ensures (c.fetch key (p.toStore.readInto key)) w
      (fun path? v => (∃ content, path? = some (.entry c.dir (entryName key)) ∧
          c.serves? p w key = some content ∧ c.Fetched w key content v) ∨
        (path? = none ∧ c.serves? p w key = none ∧ c.Turns w (c.entries w) v))
      fun _ v => ¬ p.Quiet w ∧ c.Turns w (c.entries w) v := by
  rw [c.fetch_eq]
  rcases hw.entry hopen with hnode | ⟨content, t, hnode⟩
  · refine Ensures.bind_ok (touch_miss hw hfits hne hnode) ?_
    have hserves : c.serves? p w key = p.hold? w key := serves?_of_miss (entry?_eq_none hnode)
    obtain ⟨files, hfiles⟩ := hw.temps
    refine withTemp_spec hfiles fun serial hfree => ?_
    -- what is left of a download that filled the temporary file, without that file
    have hleft : ∀ {part : Bytes} {v : World}, (w.putTemp c.tempDir serial part).Looks v →
        ∃ u, v = u.putTemp c.tempDir serial part ∧ w.Looks u ∧
          v.dropTemp c.tempDir serial = u := by
      intro part v hv
      obtain ⟨u, rfl, hu⟩ := World.exists_of_putTemp_looks hv
      exact ⟨u, rfl, hu, World.dropTemp_putTemp ((hu.temps? _).trans hfiles) hfree part⟩
    have hplace : ∀ part, (w.putTemp c.tempDir serial []).place (.temp c.tempDir serial) part =
        w.putTemp c.tempDir serial part := fun part => World.putTemp_putTemp [] part
    have hwritable := World.writable_putTemp hfiles serial []
    have hdownload := PlainStore.readInto_spec (hp.putTemp c.tempDir serial []) hkey hwritable
    refine Ensures.bind (hdownload.mono (fun _ _ h => h) ?_) ?_
    · rintro _ v ⟨hquiet, hv⟩
      rw [PlainStore.quiet_putTemp] at hquiet
      refine ⟨hquiet, ?_⟩
      rcases hv with hv | ⟨part, hv⟩
      · obtain ⟨u, -, hu, hdrop⟩ := hleft hv
        rw [hdrop]
        exact .of_looks hu
      · rw [hplace] at hv
        obtain ⟨u, -, hu, hdrop⟩ := hleft hv
        rw [hdrop]
        exact .of_looks hu
    · rintro found v (⟨rfl, content, hhold, hv⟩ | ⟨rfl, hhold, hv⟩)
      · rw [PlainStore.hold?_putTemp] at hhold
        rw [hplace] at hv
        obtain ⟨u, rfl, hu, -⟩ := hleft hv
        have hturns : c.Turns w (c.entries w) u := .of_looks hu
        have hfiles' := (hu.temps? c.tempDir).trans hfiles
        obtain ⟨x, es, hinstall, hx, hadds⟩ := install_spec
          (hturns.intact hw hw.isFile) hfiles' hfree hfits hne content
        refine Ensures.bind_ok hinstall (Ensures.pure (.inl ⟨content, rfl, ?_, es, ?_, ?_⟩))
        · rw [hserves, hhold]
        · rw [World.dropTemp_of_free ((hx.temps? _).trans hfiles') hfree]
          exact hturns.trans hx
        · rwa [hturns.entries hw.dir] at hadds
      · rw [PlainStore.hold?_putTemp] at hhold
        obtain ⟨u, -, hu, hdrop⟩ := hleft hv
        refine Ensures.pure (.inr ⟨rfl, hserves.trans hhold, ?_⟩)
        rw [hdrop]
        exact .of_looks hu
  · refine Ensures.bind_ok (touch_hit hw hfits hne hnode) ?_
    refine Ensures.pure (.inl ⟨content, rfl, ?_, _, .refill _ _ _, adds_insert _ _ _ _ _⟩)
    unfold serves?
    rw [entry?_eq_some hnode, Option.some_or]

/-- Reading delivers to a writable place what is served. -/
theorem readInto_spec {dest : LocalPath} (hdest : dest.IsOutside) :
    Ensures ((Store.caching name c p.toStore).readInto key dest) w
      (fun found v => (found = true ∧ ∃ content u, c.serves? p w key = some content ∧
          c.Fetched w key content u ∧ w.Writable dest ∧ v = u.place dest content) ∨
        (found = false ∧ c.serves? p w key = none ∧ c.Turns w (c.entries w) v))
      fun _ v => (¬ p.Quiet w ∧ c.Turns w (c.entries w) v) ∨
        (¬ w.Writable dest ∧ ∃ content, c.serves? p w key = some content ∧
          c.Fetched w key content v) := by
  show Ensures (if ByteRange.isAnnotated key then _ else _) _ _ _
  rw [if_neg (ByteRange.not_isAnnotated_of_splitKey hkey)]
  refine Ensures.bind ((fetch_spec hw hp hkey hne hfits hopen).mono (fun _ _ h => h)
    fun _ _ h => .inl h) ?_
  rintro path? v (⟨content, rfl, hserves, hv⟩ | ⟨rfl, hserves, hv⟩)
  · have hread := hv.read hw
    have hplace := hv.isReadOnly hw
    obtain ⟨es, hturns, hadds⟩ := hv
    by_cases hwritable : w.Writable dest
    · refine Ensures.bind_ok (copyFile_ok hread hplace (hturns.writable hdest hwritable)) ?_
      exact Ensures.pure (.inl ⟨rfl, content, v, hserves, ⟨es, hturns, hadds⟩, hwritable, rfl⟩)
    · obtain ⟨e, he⟩ := copyFile_error hread hdest fun h => hwritable (hturns.writable_of hdest h)
      exact Ensures.bind_error he (.inr ⟨hwritable, content, hserves, es, hturns, hadds⟩)
  · exact Ensures.pure (.inr ⟨rfl, hserves, hv⟩)

/-- Opening a blob and reading it to its end delivers what is served. -/
theorem stream_spec :
    Ensures ((Store.caching name c p.toStore).openStream key) w
      (fun stream? v => (∃ content stream, stream? = some stream ∧
          c.serves? p w key = some content ∧ c.Fetched w key content v ∧
          stream.drain v = .ok (content, none) v) ∨
        (stream? = none ∧ c.serves? p w key = none ∧ c.Turns w (c.entries w) v))
      fun _ v => ¬ p.Quiet w ∧ c.Turns w (c.entries w) v := by
  show Ensures (if ByteRange.isAnnotated key then _ else _) _ _ _
  rw [if_neg (ByteRange.not_isAnnotated_of_splitKey hkey)]
  refine Ensures.bind (fetch_spec hw hp hkey hne hfits hopen) ?_
  rintro path? v (⟨content, rfl, hserves, hv⟩ | ⟨rfl, hserves, hv⟩)
  · refine Ensures.pure (.inl ⟨content, _, rfl, hserves, hv, ?_⟩)
    exact run_bind_ok (outcome_ok (fileContent_ok (hv.read hw))) _
  · exact Ensures.pure (.inr ⟨rfl, hserves, hv⟩)

/-- The local file of a blob holds what is served. -/
theorem localFile_spec :
    Ensures ((Store.caching name c p.toStore).localFile key) w
      (fun lookup v => (∃ content, lookup = .found (.entry c.dir (entryName key)) ∧
          c.serves? p w key = some content ∧ c.Fetched w key content v) ∨
        (lookup = .missing ∧ c.serves? p w key = none ∧ c.Turns w (c.entries w) v))
      fun _ v => ¬ p.Quiet w ∧ c.Turns w (c.entries w) v := by
  rw [Store.localFile_caching, if_neg (ByteRange.not_isAnnotated_of_splitKey hkey)]
  refine Ensures.bind (fetch_spec hw hp hkey hne hfits hopen) ?_
  rintro path? v (⟨content, rfl, hserves, hv⟩ | ⟨rfl, hserves, hv⟩)
  · exact Ensures.pure (.inl ⟨content, rfl, hserves, hv⟩)
  · exact Ensures.pure (.inr ⟨rfl, hserves, hv⟩)

/-- A blob is there if something is served. -/
theorem contains_spec :
    Ensures ((Store.caching name c p.toStore).contains key) w
      (fun b v => b = (c.serves? p w key).isSome ∧ (c.Turns w (c.entries w) v ∨
        ∃ content, c.entry? w key = some content ∧ c.Fetched w key content v))
      fun _ v => ¬ p.Quiet w ∧ c.Turns w (c.entries w) v := by
  show Ensures (if ByteRange.isAnnotated key then _ else _) _ _ _
  rw [if_neg (ByteRange.not_isAnnotated_of_splitKey hkey)]
  unfold serves?
  rcases hw.entry hopen with hnode | ⟨content, t, hnode⟩
  · rw [entry?_eq_none hnode, Option.none_or]
    refine Ensures.bind_ok (touch_miss hw hfits hne hnode) ?_
    exact (PlainStore.contains_spec hp key).mono (fun _ _ h => ⟨h.2, .inl (.of_looks h.1)⟩)
      fun _ _ h => ⟨h.2, .of_looks h.1⟩
  · rw [entry?_eq_some hnode, Option.some_or]
    refine Ensures.bind_ok (touch_hit hw hfits hne hnode) ?_
    exact Ensures.pure ⟨rfl, .inr ⟨content, rfl, _, .refill _ _ _, adds_insert _ _ _ _ _⟩⟩

end

/-! ## Entries that cannot be opened -/

section

variable (name : String) (inner : Store) (hw : c.Intact w)
  (hkey : ByteRange.splitKey key = (key, none)) (hne : key ≠ "") (hfits : Fits key)
  (hlocked : c.Locked w key)

include hw hne hfits hlocked

theorem fetch_locked (download : LocalPath → Action Bool) :
    c.fetch key download w = .error (.io .permissionDenied) w :=
  run_bind_error (touch_locked hw hfits hne hlocked) _

include hkey

theorem readInto_locked (dest : LocalPath) :
    (Store.caching name c inner).readInto key dest w = .error (.io .permissionDenied) w := by
  show (if ByteRange.isAnnotated key then _ else _ : Action Bool) w = _
  rw [if_neg (ByteRange.not_isAnnotated_of_splitKey hkey)]
  exact run_bind_error (fetch_locked hw hne hfits hlocked _) _

theorem openStream_locked :
    (Store.caching name c inner).openStream key w = .error (.io .permissionDenied) w := by
  show (if ByteRange.isAnnotated key then _ else _ : Action (Option BlobStream)) w = _
  rw [if_neg (ByteRange.not_isAnnotated_of_splitKey hkey)]
  exact run_bind_error (fetch_locked hw hne hfits hlocked _) _

theorem localFile_locked :
    (Store.caching name c inner).localFile key w = .error (.io .permissionDenied) w := by
  rw [Store.localFile_caching, if_neg (ByteRange.not_isAnnotated_of_splitKey hkey)]
  exact run_bind_error (fetch_locked hw hne hfits hlocked _) _

theorem contains_locked :
    (Store.caching name c inner).contains key w = .error (.io .permissionDenied) w := by
  show (if ByteRange.isAnnotated key then _ else _ : Action Bool) w = _
  rw [if_neg (ByteRange.not_isAnnotated_of_splitKey hkey)]
  exact run_bind_error (touch_locked hw hfits hne hlocked) _

end

end FileCache

end BlobVault
