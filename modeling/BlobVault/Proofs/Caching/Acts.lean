import BlobVault.Proofs.Caching.Touches

/-!
# Acts of a cache

What each operation of a cache makes of its entries, where nobody else works in its directory: one
may be made or marked as used, some may be dropped, and others evicted.

1. `CacheAct`, `FileCache.run`: what may be asked of a cache.
2. `FileCache.Alters`: what an act makes of the entries.
3. `touch_run`, `commit_run`, `insertFile_run`, `remove_run`, `clear_run`, `evict_run`: each act on
   its own; `run_alters`: all of them.
-/

namespace BlobVault

open Std (ExtTreeMap)

/-! ## Acts -/

/-- What may be asked of a cache: to make a temporary file or a copy of a local file the entry of a
key, to find or remove the entry of a key, to evict entries, and to drop them all. -/
inductive CacheAct
  | commit (key : String) (dir : TempDir) (serial : Nat)
  | insert (key : String) (source : LocalPath)
  | get (key : String)
  | remove (key : String)
  | evict
  | clear

namespace CacheAct

/-- The key that the act is about. -/
def key? : CacheAct → Option String
  | commit key _ _ | insert key _ | get key | remove key => some key
  | evict | clear => none

/-- The key that the act brings content for, and the file that holds it. -/
def brings? : CacheAct → Option (String × LocalPath)
  | commit key dir serial => some (key, .temp dir serial)
  | insert key source => some (key, source)
  | get _ | remove _ | evict | clear => none

/-- The act takes the entry of the key away. -/
def Drops : CacheAct → String → Prop
  | remove key, other => key = other
  | clear, _ => True
  | _, _ => False

end CacheAct

/-- An entry that an act makes or marks as used. -/
structure MadeEntry where
  name : String
  content : Bytes
  writable : Bool

namespace FileCache

/-- Carries out an act. The answer is the place of the entry, for acts that give one. -/
def run (c : FileCache) : CacheAct → Action (Option LocalPath)
  | .commit key dir serial => do return some (← c.commit key { path := .temp dir serial })
  | .insert key source => do return some (← c.insertFile key source)
  | .get key => c.touch key
  | .remove key => do
    c.remove key
    return none
  | .evict => do
    let _ ← c.evict
    return none
  | .clear => do
    c.clear
    return none

/-- The act is about a key that is not empty and not too long, and does not copy a temporary file of
the cache that is not there. -/
structure Proper (c : FileCache) (w : World) (act : CacheAct) : Prop where
  key : ∀ key, act.key? = some key → key ≠ "" ∧ Fits key
  source : ∀ key serial, act = .insert key (.temp c.tempDir serial) →
    ∃ content, w.read (.temp c.tempDir serial) = .ok content

end FileCache

/-! ## Temporary files -/

namespace World

/-- Other temporary files are not concerned by content in one of them. -/
theorem tempFile?_putTemp_of_ne {dir other : TempDir} {serial n : Nat}
    (hne : LocalPath.temp other n ≠ .temp dir serial) (w : World) (content : Bytes) :
    ((w.putTemp dir serial content).temps? other).bind (·[n]?) =
      (w.temps? other).bind (·[n]?) := by
  cases hfiles : w.temps? dir with
  | none =>
    unfold putTemp
    rw [hfiles]
  | some files =>
    by_cases hdir : dir = other
    · subst hdir
      have hn : serial ≠ n := by
        rintro rfl
        exact hne rfl
      rw [temps?_putTemp hfiles, hfiles, Option.bind_some, Option.bind_some,
        getElem?_insert_of_ne hn]
    · unfold putTemp
      rw [hfiles]
      dsimp only
      rw [temps?_setTemps_of_ne hdir]

/-- Other files are not concerned by content in a temporary file. -/
theorem read_putTemp_of_ne {path : LocalPath} {dir : TempDir} {serial : Nat}
    (hne : path ≠ .temp dir serial) (w : World) (content : Bytes) :
    (w.putTemp dir serial content).read path = w.read path := by
  cases path with
  | temp other n =>
    unfold World.read
    dsimp only
    rw [tempFile?_putTemp_of_ne hne]
  | caller _ => exact read_putTemp_of_not_isTemporary id w dir serial content
  | detached => exact read_putTemp_of_not_isTemporary id w dir serial content
  | entry _ _ => exact read_putTemp_of_not_isTemporary id w dir serial content

theorem isReadOnly_putTemp_of_ne {path : LocalPath} {dir : TempDir} {serial : Nat}
    (hne : path ≠ .temp dir serial) (w : World) (content : Bytes) :
    (w.putTemp dir serial content).isReadOnly path = w.isReadOnly path := by
  cases path with
  | temp other n =>
    unfold World.isReadOnly
    dsimp only
    rw [tempFile?_putTemp_of_ne hne]
  | caller _ => exact isReadOnly_putTemp_of_not_isTemporary id w dir serial content
  | detached => exact isReadOnly_putTemp_of_not_isTemporary id w dir serial content
  | entry _ _ => exact isReadOnly_putTemp_of_not_isTemporary id w dir serial content

end World

/-! ## What an act makes of the entries -/

namespace FileCache

variable {c : FileCache} {w v u x : World} {key : String} {content : Bytes} {dir : TempDir}
  {serial : Nat}

/-- The entry is gone, and not without reason: where an act evicts, a file of the minimum age or
more, used no later than any that stays but the one that was just made. -/
structure Ousted (c : FileCache) (made? : Option MadeEntry) (w v : World) (name : String) :
    Prop where
  gone : (c.entries v)[name]? = none
  aged : ∃ content used writable, (c.entries w)[name]? = some (.file content used writable) ∧
    c.limits.minAge ≤ max 0 (v.now - used) ∧
    ∀ (other : String) (content' : Bytes) (used' : Instant) (writable' : Bool),
      (c.entries v)[other]? = some (.file content' used' writable') →
        (∀ made, made? = some made → made.name ≠ other) → used ≤ used'

/-- What an act makes of the entries of an intact cache: it may make one or mark it as used, drop
some, and, if it evicts, oust others. -/
structure Alters (c : FileCache) (made? : Option MadeEntry) (drop : String → Prop)
    (evicting : Prop) (w v : World) : Prop where
  intact : c.Intact v
  made : ∀ made, made? = some made →
    ∃ t, (c.entries v)[made.name]? = some (.file made.content t made.writable)
  drops : ∀ name, drop name → (c.entries v)[name]? = none
  others : ∀ name, (∀ made, made? = some made → made.name ≠ name) → ¬ drop name →
    (c.entries v)[name]? = (c.entries w)[name]? ∨ evicting ∧ c.Ousted made? w v name

variable {made? : Option MadeEntry} {drop : String → Prop} {evicting : Prop}

namespace Alters

theorem refl (hw : c.Intact w) : c.Alters none NoneDropped evicting w w where
  intact := hw
  made _ h := absurd h nofun
  drops _ h := h.elim
  others _ _ _ := .inl rfl

theorem of_evicting (h : c.Alters made? drop evicting w v) {evicting' : Prop}
    (himp : evicting → evicting') : c.Alters made? drop evicting' w v where
  intact := h.intact
  made := h.made
  drops := h.drops
  others name hmade hdrop := (h.others name hmade hdrop).imp_right (And.imp_left himp)

/-- What concerns no entry may come before and after. -/
theorem between (h : c.Alters made? drop evicting w v) (hx : x.Still w) (hu : v.Still u)
    (hintact : c.Intact u) : c.Alters made? drop evicting x u where
  intact := hintact
  made := by
    rw [hu.entries]
    exact h.made
  drops := by
    rw [hu.entries]
    exact h.drops
  others name hmade hdrop := by
    rw [hu.entries, ← hx.entries]
    refine (h.others name hmade hdrop).imp_right (And.imp_right fun housted => ?_)
    obtain ⟨hgone, haged⟩ := housted
    refine ⟨by rwa [hu.entries], ?_⟩
    rwa [hu.entries, ← hx.entries, hu.now]

/-- An eviction that spares what was made. -/
theorem evicts (h : c.Alters made? drop False w u) (hintact : c.Intact v) (hnow : v.now = u.now)
    (hevicts : c.limits.Evicts u.now (made?.map MadeEntry.name) (c.entries u) (c.entries v)) :
    c.Alters made? drop True w v where
  intact := hintact
  made made hmade := by
    rw [hevicts.keeps made.name (by rw [hmade]; rfl)]
    exact h.made made hmade
  drops name hdrop := by
    cases hleft : (c.entries v)[name]? with
    | none => rfl
    | some node => exact absurd ((h.drops name hdrop).symm.trans (hevicts.thins _ _ hleft)) nofun
  others name hmade hdrop := by
    rw [← (h.others name hmade hdrop).resolve_right And.left]
    cases hleft : (c.entries v)[name]? with
    | some node => exact .inl (hevicts.thins name node hleft).symm
    | none =>
      cases hbefore : (c.entries u)[name]? with
      | none => exact .inl rfl
      | some node =>
        obtain ⟨content, used, writable, rfl, hage, holdest⟩ :=
          hevicts.oldest name node hbefore hleft
        refine .inr ⟨trivial, hleft, content, used, writable, ?_, by rwa [hnow], ?_⟩
        · rw [← (h.others name hmade hdrop).resolve_right And.left, hbefore]
        · intro other content' used' writable' hother hfree
          refine holdest other content' used' writable' hother fun hkeep => ?_
          obtain ⟨made, hsome, hname⟩ := Option.map_eq_some_iff.1 hkeep
          exact hfree made hsome hname

end Alters

/-- What becomes of an intact cache when an entry is put in place. -/
theorem alters_insert (hw : c.Intact w) (made : MadeEntry) (used now : Instant) :
    c.Alters (some made) NoneDropped False w
      (c.refill w now ((c.entries w).insert made.name
        (.file made.content used made.writable))) := by
  have hadds := adds_insert (c.entries w) made.name made.content used made.writable
  generalize hes : (c.entries w).insert made.name _ = es at hadds
  have hturns : c.Turns w es _ := .refill w now es
  have hentries := hturns.entries hw.dir
  refine ⟨hturns.intact hw (hadds.isFile hw.isFile), ?_, fun _ h => h.elim,
    fun other hother _ => .inl ?_⟩
  · intro made' hmade
    obtain rfl := Option.some.inj hmade
    rw [hentries]
    exact hadds.self
  · rw [hentries, ← hes, getElem?_insert_of_ne (hother made rfl)]

/-- Changes that concern no entry, and no directory for temporary files. -/
theorem Intact.of_still (hw : c.Intact w) (hstill : w.Still v)
    (htemps : (∃ files, w.temps? c.tempDir = some files) →
      ∃ files, v.temps? c.tempDir = some files) : c.Intact v where
  temps := htemps hw.temps
  isFile := by
    rw [hstill.entries]
    exact hw.isFile

theorem Intact.dropTemp (hw : c.Intact w) (dir : TempDir) (serial : Nat) :
    c.Intact (w.dropTemp dir serial) :=
  hw.of_still (w.still_dropTemp dir serial) ((w.warms_dropTemp dir serial).temps c.tempDir)

theorem Intact.putTemp (hw : c.Intact w) (serial : Nat) (content : Bytes) (writable : Bool) :
    c.Intact (w.putTemp c.tempDir serial content writable) := by
  obtain ⟨files, hfiles⟩ := hw.temps
  exact hw.of_still (w.still_putTemp c.tempDir serial content writable) fun _ =>
    ⟨_, World.temps?_putTemp hfiles content⟩

/-! ## Each act -/

/-- What a look-up of the key finds: the content of its entry, if that can be opened. -/
def opened? (c : FileCache) (w : World) (key : String) : Option Bytes :=
  match (c.entries w)[entryName key]? with
  | some (.file content _ true) => some content
  | _ => none

theorem opened?_eq_some {t : Instant}
    (h : (c.entries w)[entryName key]? = some (.file content t)) :
    c.opened? w key = some content := by
  unfold opened?
  rw [h]

theorem opened?_eq_none (h : (c.entries w)[entryName key]? = none) : c.opened? w key = none := by
  unfold opened?
  rw [h]

theorem opened?_of_locked (h : c.Locked w key) : c.opened? w key = none := by
  obtain ⟨bytes, t, hentry⟩ := h
  unfold opened?
  rw [hentry]

theorem exists_of_opened? (h : c.opened? w key = some content) :
    ∃ t, (c.entries w)[entryName key]? = some (.file content t) := by
  unfold opened? at h
  split at h
  · obtain rfl := Option.some.inj h
    exact ⟨_, ‹_›⟩
  · exact absurd h nofun

theorem touch_run (hw : c.Intact w) (hne : key ≠ "") (hfits : Fits key)
    (hopen : ¬ c.Locked w key) :
    ∃ v, c.touch key w = .ok ((c.opened? w key).map fun _ => .entry c.dir (entryName key)) v ∧
      c.Alters ((c.opened? w key).map fun content => ⟨entryName key, content, true⟩) NoneDropped
        False w v := by
  rcases hw.entry hopen with hmiss | ⟨content, t, hhit⟩
  · rw [opened?_eq_none hmiss]
    exact ⟨w, touch_miss hw hfits hne hmiss, .refl hw⟩
  · rw [opened?_eq_some hhit]
    exact ⟨_, touch_hit hw hfits hne hhit,
      alters_insert hw ⟨entryName key, content, true⟩ w.now _⟩

/-- A temporary file that is there becomes the entry of a key. -/
theorem publish_run (hw : c.Intact w) (hne : key ≠ "") (hfits : Fits key)
    (hread : w.read (.temp dir serial) = .ok content) :
    c.publish key dir serial w = .ok () ((c.refill w (w.now + 1)
      ((c.entries w).insert (entryName key)
        (.file content w.now (!w.isReadOnly (.temp dir serial))))).dropTemp dir serial) := by
  obtain ⟨d, hd⟩ := hw.dir
  rw [refill_eq hd, entries_eq hd]
  unfold publish
  dsimp only
  rw [run_bind_ok (fileContent_ok hread), run_get_bind, hd]
  dsimp only
  rw [if_neg (fits_iff.1 hfits), if_neg (entryName_ne_empty hne)]
  generalize (!w.isReadOnly (.temp dir serial)) = writable
  cases hnode : d.entries[entryName key]? with
  | none => rfl
  | some node =>
    obtain ⟨old, t, writable', rfl⟩ := hw.isFile _ node (by rw [entries_eq hd, hnode])
    rfl

theorem evictExcept_run (hw : c.Intact w) (keep? : Option String) :
    ∃ stats v, c.evictExcept keep? w = .ok stats v ∧ c.Intact v ∧ v.now = w.now ∧
      c.limits.Evicts w.now keep? (c.entries w) (c.entries v) := by
  obtain ⟨d, hd⟩ := hw.dir
  obtain ⟨stats, es, hrun, hevicts⟩ := evictExcept_spec keep? hd
  refine ⟨stats, _, hrun, ?_, ?_, ?_⟩
  · exact (Turns.refill w w.now es).intact hw fun name node hnode =>
      hw.isFile name node (hevicts.thins name node hnode)
  · rw [refill_rest]
  · rwa [entries_refill hd]

/-- The entry of a key is made of a temporary file, and others may be evicted for it. -/
theorem install_run (hw : c.Intact w) (hne : key ≠ "") (hfits : Fits key)
    (hread : w.read (.temp dir serial) = .ok content) :
    ∃ v, c.install key (.temp dir serial) w = .ok (.entry c.dir (entryName key)) v ∧
      c.Alters (some ⟨entryName key, content, !w.isReadOnly (.temp dir serial)⟩) NoneDropped True
        w v := by
  have hpublish := publish_run hw hne hfits hread
  have hinsert := alters_insert hw
    ⟨entryName key, content, !w.isReadOnly (.temp dir serial)⟩ w.now (w.now + 1)
  have hmade := hinsert.between (.refl w) (World.still_dropTemp _ dir serial)
    (hinsert.intact.dropTemp dir serial)
  generalize (c.refill w (w.now + 1) _).dropTemp dir serial = u at hpublish hmade
  obtain ⟨stats, v, hevict, hintact, hnow, hevicts⟩ :=
    evictExcept_run hmade.intact (some (entryName key))
  refine ⟨v, ?_, hmade.evicts hintact hnow hevicts⟩
  have hattempt : attempt (do let _ ← c.evictExcept (some (entryName key))) u = .ok () v :=
    attempt_ok hevict
  exact (run_bind_ok hpublish _).trans ((run_bind_ok hattempt _).trans rfl)

theorem commit_run (hw : c.Intact w) (hne : key ≠ "") (hfits : Fits key)
    (hread : w.read (.temp dir serial) = .ok content) :
    ∃ v, c.commit key { path := .temp dir serial } w = .ok (.entry c.dir (entryName key)) v ∧
      c.Alters (some ⟨entryName key, content, !w.isReadOnly (.temp dir serial)⟩) NoneDropped True
        w v := by
  obtain ⟨v, hrun, halters⟩ := install_run hw hne hfits hread
  refine ⟨v.dropTemp dir serial, ?_, halters.between (.refl w) (v.still_dropTemp dir serial)
    (halters.intact.dropTemp dir serial)⟩
  rw [c.commit_eq]
  unfold TempGuard.close
  rw [hrun]
  rfl

/-- Where there is no temporary file to commit, nothing changes. -/
theorem commit_unreadable {cause : IoError} (hread : w.read (.temp dir serial) = .error cause) :
    c.commit key { path := .temp dir serial } w = .error (.io cause) w := by
  have hinstall : c.install key (.temp dir serial) w = .error (.io cause) w :=
    run_bind_error (run_bind_error (fileContent_error hread) _) _
  rw [c.commit_eq]
  unfold TempGuard.close
  rw [hinstall]
  exact congrArg (EStateM.Result.error _) (World.dropTemp_of_missing (World.missing_of_read hread))

/-- A copy of a local file becomes the entry of a key, if the file can be read; else nothing has
changed. -/
theorem insertFile_run (hw : c.Intact w) (hne : key ≠ "") (hfits : Fits key) {source : LocalPath}
    (hsource : ∀ serial, source = .temp c.tempDir serial → ∃ content, w.read source = .ok content) :
    Ensures (c.insertFile key source) w
      (fun path v => path = .entry c.dir (entryName key) ∧ ∃ content, w.read source = .ok content ∧
        c.Alters (some ⟨entryName key, content, !w.isReadOnly source⟩) NoneDropped True w v)
      fun e v => v = w ∧ ∃ cause, w.read source = .error cause ∧ e = .io cause := by
  obtain ⟨files, hfiles⟩ := hw.temps
  rw [c.insertFile_eq]
  refine withTemp_spec hfiles fun serial hfree => ?_
  -- the file that is there to be copied is not the new one that takes the copy
  have hother : source ≠ .temp c.tempDir serial := by
    rintro rfl
    obtain ⟨content, hread⟩ := hsource serial rfl
    unfold World.read at hread
    simp only [hfiles, Option.bind_some, hfree] at hread
    exact absurd hread nofun
  have hread := World.read_putTemp_of_ne hother w []
  cases hcontent : w.read source with
  | error cause =>
    rw [hcontent] at hread
    refine Ensures.bind_error (run_bind_error (fileContent_error hread) _) ?_
    exact ⟨World.dropTemp_putTemp hfiles hfree [], cause, rfl, rfl⟩
  | ok content =>
    rw [hcontent] at hread
    have hcopy := copyFile_temp hread (World.writable_putTemp hfiles serial [])
    rw [World.isReadOnly_putTemp_of_ne hother, World.putTemp_putTemp] at hcopy
    refine Ensures.bind_ok hcopy ?_
    generalize (!w.isReadOnly source) = writable
    obtain ⟨v, hinstall, halters⟩ := install_run (hw.putTemp serial content writable) hne
      hfits (World.read_putTemp hfiles content)
    rw [World.isReadOnly_putTemp hfiles, Bool.not_not] at halters
    refine Ensures.of_ok hinstall ⟨rfl, content, rfl, ?_⟩
    exact halters.between (w.still_putTemp _ _ _ _) (v.still_dropTemp _ _)
      (halters.intact.dropTemp _ _)

/-- Where entries of some names are dropped and no other is touched. -/
theorem alters_of_drops (hw : c.Intact w) {es : CacheEntries} (hturns : c.Turns w es v)
    (hes : ∀ name : String, (drop name → es[name]? = none) ∧
      (¬ drop name → es[name]? = (c.entries w)[name]?)) :
    c.Alters none drop False w v := by
  have hentries := hturns.entries hw.dir
  refine ⟨hturns.intact hw fun name node hnode => ?_, nofun, fun name hdrop => ?_,
    fun name _ hdrop => .inl ?_⟩
  · by_cases hdrop : drop name
    · exact absurd (((hes name).1 hdrop).symm.trans hnode) nofun
    · exact hw.isFile name node (((hes name).2 hdrop).symm.trans hnode)
  · rw [hentries, (hes name).1 hdrop]
  · rw [hentries, (hes name).2 hdrop]

theorem remove_run (hw : c.Intact w) (key : String) :
    ∃ v, c.remove key w = .ok () v ∧ c.Alters none (· = entryName key) False w v := by
  obtain ⟨v, es, hrun, -, hturns, hes⟩ := remove_entries hw key
  exact ⟨v, hrun, alters_of_drops hw hturns fun name =>
    ⟨fun hname => (hes name).trans (if_pos hname), fun hname => (hes name).trans (if_neg hname)⟩⟩

theorem clear_run (hw : c.Intact w) :
    ∃ v, c.clear w = .ok () v ∧ c.Alters none (fun _ => True) False w v := by
  obtain ⟨v, es, hrun, -, hturns, hempty⟩ := clear_spec hw
  exact ⟨v, hrun, alters_of_drops hw hturns fun name =>
    ⟨fun _ => hempty name, fun h => absurd trivial h⟩⟩

theorem evict_run (hw : c.Intact w) :
    ∃ stats v, c.evict w = .ok stats v ∧ c.Alters none NoneDropped True w v := by
  obtain ⟨stats, v, hrun, hintact, hnow, hevicts⟩ := evictExcept_run hw none
  exact ⟨stats, v, hrun, (Alters.refl hw).evicts hintact hnow hevicts⟩

/-! ## All acts -/

/-- The entry that a local file becomes under a key, if it can be read. -/
def brought? (w : World) (key : String) (source : LocalPath) : Option MadeEntry :=
  (w.read source).toOption.map fun content => ⟨entryName key, content, !w.isReadOnly source⟩

/-- The entry that an act makes or marks as used. -/
def marks? (c : FileCache) (w : World) : CacheAct → Option MadeEntry
  | .commit key dir serial => brought? w key (.temp dir serial)
  | .insert key source => brought? w key source
  | .get key => (c.opened? w key).map (⟨entryName key, ·, true⟩)
  | .remove _ | .evict | .clear => none

/-- The place of the entry that a local file becomes, or why the file cannot be read. -/
def placed (c : FileCache) (w : World) (key : String) (source : LocalPath) :
    Except BlobError (Option LocalPath) :=
  match w.read source with
  | .ok _ => .ok (some (.entry c.dir (entryName key)))
  | .error cause => .error (.io cause)

/-- What an act answers: a place, for acts that give one, or why it fails. -/
def replies (c : FileCache) (w : World) : CacheAct → Except BlobError (Option LocalPath)
  | .commit key dir serial => c.placed w key (.temp dir serial)
  | .insert key source => c.placed w key source
  | .get key =>
    match (c.entries w)[entryName key]? with
    | some (.file _ _ false) => .error (.io .permissionDenied)
    | some (.file _ _ true) => .ok (some (.entry c.dir (entryName key)))
    | _ => .ok none
  | .remove _ | .evict | .clear => .ok none

/-- The names that an act drops. -/
def dropped : CacheAct → String → Prop
  | .remove key, name => name = entryName key
  | .clear, _ => True
  | _, _ => False

/-- The act evicts: on its own, or because it makes an entry. -/
def Evicting (w : World) (act : CacheAct) : Prop :=
  act = .evict ∨
    ∃ key source content, act.brings? = some (key, source) ∧ w.read source = .ok content

theorem brought?_of_ok {source : LocalPath} (hread : w.read source = .ok content) :
    brought? w key source = some ⟨entryName key, content, !w.isReadOnly source⟩ := by
  unfold brought?
  rw [hread]
  rfl

theorem brought?_of_error {source : LocalPath} {cause : IoError}
    (hread : w.read source = .error cause) : brought? w key source = none := by
  unfold brought?
  rw [hread]
  rfl

theorem brought?_eq_some {source : LocalPath} {made : MadeEntry}
    (h : brought? w key source = some made) :
    w.read source = .ok made.content ∧ made.name = entryName key ∧
      made.writable = !w.isReadOnly source := by
  cases hread : w.read source with
  | error cause =>
    rw [brought?_of_error hread] at h
    exact absurd h nofun
  | ok content =>
    rw [brought?_of_ok hread] at h
    obtain rfl := Option.some.inj h
    exact ⟨rfl, rfl, rfl⟩

theorem placed_of_ok {source : LocalPath} (hread : w.read source = .ok content) :
    c.placed w key source = .ok (some (.entry c.dir (entryName key))) := by
  unfold placed
  rw [hread]

theorem placed_of_error {source : LocalPath} {cause : IoError}
    (hread : w.read source = .error cause) : c.placed w key source = .error (.io cause) := by
  unfold placed
  rw [hread]

theorem marks?_of_brings? {act : CacheAct} {source : LocalPath}
    (hbrings : act.brings? = some (key, source)) : c.marks? w act = brought? w key source := by
  cases act with
  | commit _ _ _ =>
    obtain ⟨rfl, rfl⟩ := Prod.mk.inj (Option.some.inj hbrings)
    rfl
  | insert _ _ =>
    obtain ⟨rfl, rfl⟩ := Prod.mk.inj (Option.some.inj hbrings)
    rfl
  | get _ => exact absurd hbrings nofun
  | remove _ => exact absurd hbrings nofun
  | evict => exact absurd hbrings nofun
  | clear => exact absurd hbrings nofun

theorem replies_of_locked (h : c.Locked w key) :
    c.replies w (.get key) = .error (.io .permissionDenied) := by
  obtain ⟨bytes, t, hentry⟩ := h
  unfold replies
  dsimp only
  rw [hentry]

theorem replies_of_not_locked (hw : c.Intact w) (hopen : ¬ c.Locked w key) :
    c.replies w (.get key) =
      .ok ((c.opened? w key).map fun _ => .entry c.dir (entryName key)) := by
  unfold replies opened?
  rcases hw.entry hopen with hmiss | ⟨content, t, hhit⟩
  · simp only [hmiss, Option.map_none]
  · simp only [hhit, Option.map_some]

/-- An act makes or marks the entry of the key that it is about. -/
theorem key?_of_marks? {act : CacheAct} {made : MadeEntry} (h : c.marks? w act = some made) :
    ∃ key, act.key? = some key ∧ made.name = entryName key := by
  cases act with
  | commit key _ _ => exact ⟨key, rfl, (brought?_eq_some h).2.1⟩
  | insert key _ => exact ⟨key, rfl, (brought?_eq_some h).2.1⟩
  | get key =>
    obtain ⟨content, -, rfl⟩ := Option.map_eq_some_iff.1 h
    exact ⟨key, rfl, rfl⟩
  | remove _ => exact absurd h nofun
  | evict => exact absurd h nofun
  | clear => exact absurd h nofun

/-- An act that makes or marks the entry of a key has brought the content, or the entry had it. -/
theorem marks?_eq_some {act : CacheAct} {made : MadeEntry} (h : c.marks? w act = some made)
    (hname : made.name = entryName key) :
    (∃ source, act.brings? = some (key, source) ∧ w.read source = .ok made.content ∧
        made.writable = !w.isReadOnly source) ∨
      act = .get key ∧ ∃ t, (c.entries w)[entryName key]? =
        some (.file made.content t made.writable) := by
  have hbrought : ∀ {k : String} {source : LocalPath}, act.brings? = some (k, source) →
      ∃ source, act.brings? = some (key, source) ∧ w.read source = .ok made.content ∧
        made.writable = !w.isReadOnly source := by
    intro k source hbrings
    rw [marks?_of_brings? hbrings] at h
    obtain ⟨hread, hname', hwritable⟩ := brought?_eq_some h
    obtain rfl := entryName_inj (hname'.symm.trans hname)
    exact ⟨source, hbrings, hread, hwritable⟩
  cases act with
  | commit k dir serial => exact .inl (hbrought rfl)
  | insert k source => exact .inl (hbrought rfl)
  | get k =>
    obtain ⟨content', hfound, rfl⟩ := Option.map_eq_some_iff.1 h
    obtain rfl := entryName_inj hname
    exact .inr ⟨rfl, exists_of_opened? hfound⟩
  | remove _ => exact absurd h nofun
  | evict => exact absurd h nofun
  | clear => exact absurd h nofun

/-- What an act answers and what it makes of the entries. Where it fails, nothing has changed. -/
theorem run_alters (hw : c.Intact w) {act : CacheAct} (hact : c.Proper w act) :
    Ensures (c.run act) w
      (fun path? v => c.replies w act = .ok path? ∧
        c.Alters (c.marks? w act) (dropped act) (Evicting w act) w v)
      fun e v => c.replies w act = .error e ∧ v = w ∧
        c.Alters (c.marks? w act) (dropped act) (Evicting w act) w w := by
  cases act with
  | commit key dir serial =>
    obtain ⟨hne, hfits⟩ := hact.key key rfl
    cases hread : w.read (.temp dir serial) with
    | error cause =>
      have hmarks : c.marks? w (.commit key dir serial) = none := brought?_of_error hread
      exact Ensures.bind_error (commit_unreadable hread)
        ⟨placed_of_error hread, rfl, hmarks ▸ .refl hw⟩
    | ok content =>
      obtain ⟨v, hrun, halters⟩ := commit_run hw hne hfits hread
      refine Ensures.bind_ok hrun (Ensures.pure ⟨placed_of_ok hread, ?_⟩)
      rw [show c.marks? w (.commit key dir serial) = _ from brought?_of_ok hread]
      exact halters.of_evicting fun _ => .inr ⟨key, _, content, rfl, hread⟩
  | insert key source =>
    obtain ⟨hne, hfits⟩ := hact.key key rfl
    have hsource : ∀ serial, source = .temp c.tempDir serial →
        ∃ content, w.read source = .ok content := by
      rintro serial rfl
      exact hact.source key serial rfl
    refine Ensures.bind ((insertFile_run hw hne hfits hsource).mono (fun _ _ h => h) ?_) ?_
    · rintro _ v ⟨rfl, cause, hread, rfl⟩
      have hmarks : c.marks? v (.insert key source) = none := brought?_of_error hread
      exact ⟨placed_of_error hread, rfl, hmarks ▸ .refl hw⟩
    · rintro _ v ⟨rfl, content, hread, halters⟩
      refine Ensures.pure ⟨placed_of_ok hread, ?_⟩
      rw [show c.marks? w (.insert key source) = _ from brought?_of_ok hread]
      exact halters.of_evicting fun _ => .inr ⟨key, source, content, rfl, hread⟩
  | get key =>
    obtain ⟨hne, hfits⟩ := hact.key key rfl
    by_cases hlocked : c.Locked w key
    · have hmarks : c.marks? w (.get key) = none :=
        Option.map_eq_none_iff.2 (opened?_of_locked hlocked)
      exact Ensures.of_error (touch_locked hw hfits hne hlocked)
        ⟨replies_of_locked hlocked, rfl, hmarks ▸ .refl hw⟩
    · obtain ⟨v, hrun, halters⟩ := touch_run hw hne hfits hlocked
      exact Ensures.of_ok hrun ⟨replies_of_not_locked hw hlocked, halters.of_evicting False.elim⟩
  | remove key =>
    obtain ⟨v, hrun, halters⟩ := remove_run hw key
    exact Ensures.bind_ok hrun (Ensures.pure ⟨rfl, halters.of_evicting False.elim⟩)
  | evict =>
    obtain ⟨stats, v, hrun, halters⟩ := evict_run hw
    exact Ensures.bind_ok hrun (Ensures.pure ⟨rfl, halters.of_evicting fun _ => .inl rfl⟩)
  | clear =>
    obtain ⟨v, hrun, halters⟩ := clear_run hw
    exact Ensures.bind_ok hrun (Ensures.pure ⟨rfl, halters.of_evicting False.elim⟩)

theorem dropped_entryName {act : CacheAct} : dropped act (entryName key) ↔ act.Drops key := by
  cases act with
  | remove k => exact ⟨fun h => (entryName_inj h).symm, fun h => congrArg entryName h.symm⟩
  | _ => exact Iff.rfl

end FileCache

end BlobVault
