import BlobVault.Proofs.Caching.Acts

/-!
# A cache as a finite map

Where nobody else works in its directory, a cache is a map from keys to contents that forgets a key
only when it is told to, or when it evicts. A copy of a file that may not be written to is kept like
any other, but a look-up cannot open it.

1. `FileCache.Lives`: the lives of a cache, as the acts that were carried out.
2. `FileCache.holds_after_iff`: what an event leaves of what is held under a key.
3. `FileCache.Lived`: what holds after any life.
4. `FileCache.finite_map`: what a look-up finds after any life.
-/

namespace BlobVault

open Std (ExtTreeMap)

/-! ## Events -/

/-- An act as it was carried out. -/
structure CacheEvent where
  act : CacheAct
  before : World
  answer : Except BlobError (Option LocalPath)
  after : World

namespace CacheEvent

/-- The event brings complete content for the key, in a file that may be written to or not. -/
def Commits (e : CacheEvent) (key : String) (content : Bytes) (writable : Bool) : Prop :=
  ∃ source, e.act.brings? = some (key, source) ∧ e.before.read source = .ok content ∧
    writable = !e.before.isReadOnly source

/-- What the event brings may be written to. -/
def Opens (e : CacheEvent) : Prop :=
  ∀ key source, e.act.brings? = some (key, source) → e.before.isReadOnly source = false

/-- The event takes the entry of the key away, and not because it is told to. -/
structure Evicts (c : FileCache) (e : CacheEvent) (key : String) : Prop where
  before : (c.entry? e.before key).isSome
  after : c.entry? e.after key = none
  drops : ¬ e.act.Drops key

/-- The event neither brings content for the key nor takes its entry away. -/
structure Leaves (c : FileCache) (e : CacheEvent) (key : String) : Prop where
  commits : ∀ content writable, ¬ e.Commits key content writable
  drops : ¬ e.act.Drops key
  evicts : ¬ e.Evicts c key

theorem Commits.opens {e : CacheEvent} {key : String} {content : Bytes} {writable : Bool}
    (h : e.Commits key content writable) (hopens : e.Opens) : writable = true := by
  obtain ⟨source, hbrings, -, rfl⟩ := h
  rw [hopens key source hbrings]
  rfl

end CacheEvent

namespace FileCache

/-- Somebody who does not work in the directory of the cache has changed the world. -/
structure Spares (c : FileCache) (w v : World) : Prop where
  entries : c.entries v = c.entries w
  temps : (∃ files, w.temps? c.tempDir = some files) → ∃ files, v.temps? c.tempDir = some files

/-- The event of an act in a world. -/
def event (c : FileCache) (act : CacheAct) (w : World) : CacheEvent where
  act
  before := w
  answer := w.answer (c.run act)
  after := w.after (c.run act)

/-- The events of a cache from one world to another, with whatever goes on elsewhere before each of
them and after the last. -/
inductive Lives (c : FileCache) (w : World) : List CacheEvent → World → Prop
  | start : Lives c w [] w
  | elsewhere {events : List CacheEvent} {v u : World} (h : Lives c w events v)
      (hspares : c.Spares v u) : Lives c w events u
  | event {events : List CacheEvent} {v : World} (h : Lives c w events v) {act : CacheAct}
      (hproper : c.Proper v act) : Lives c w (events ++ [c.event act v]) (c.event act v).after

/-- The cache has a file with the content under the key, which may be written to or not. -/
def Holds (c : FileCache) (w : World) (key : String) (content : Bytes) (writable : Bool) : Prop :=
  ∃ t, (c.entries w)[entryName key]? = some (.file content t writable)

variable {c : FileCache} {w : World} {act : CacheAct} {key : String} {content : Bytes}
  {writable : Bool}

theorem Holds.unique {content' : Bytes} {writable' : Bool} (h : c.Holds w key content writable)
    (h' : c.Holds w key content' writable') : content = content' ∧ writable = writable' := by
  obtain ⟨t, ht⟩ := h
  obtain ⟨t', ht'⟩ := h'
  obtain ⟨rfl, -, rfl⟩ := CacheNode.file.inj (Option.some.inj (ht.symm.trans ht'))
  exact ⟨rfl, rfl⟩

theorem Holds.entry? (h : c.Holds w key content writable) : c.entry? w key = some content := by
  obtain ⟨t, ht⟩ := h
  exact entry?_eq_some ht

theorem not_holds (h : (c.entries w)[entryName key]? = none) :
    ¬ c.Holds w key content writable := fun ⟨_, ht⟩ => absurd (h.symm.trans ht) nofun

theorem holds_congr {v : World}
    (h : (c.entries v)[entryName key]? = (c.entries w)[entryName key]?) :
    c.Holds v key content writable ↔ c.Holds w key content writable := by
  unfold Holds
  rw [h]

/-- What an event makes of the entries, and its answer. -/
theorem event_alters (hw : c.Intact w) (hact : c.Proper w act) :
    c.Alters (c.marks? w act) (dropped act) (Evicting w act) w (c.event act w).after ∧
      (c.event act w).answer = c.replies w act ∧
      ∀ e, (c.event act w).answer = .error e → (c.event act w).after = w := by
  have hlaw := run_alters hw hact
  unfold event World.after World.answer
  cases hrun : c.run act w with
  | ok path? v =>
    obtain ⟨hreplies, halters⟩ := hlaw.ok_of_eq hrun
    exact ⟨halters, hreplies.symm, nofun⟩
  | error e v =>
    obtain ⟨hreplies, rfl, halters⟩ := hlaw.error_of_eq hrun
    exact ⟨halters, hreplies.symm, fun _ _ => rfl⟩

theorem holds_after_of_commits (hw : c.Intact w) (hact : c.Proper w act)
    (h : (c.event act w).Commits key content writable) :
    c.Holds (c.event act w).after key content writable := by
  obtain ⟨source, hbrings, hread, rfl⟩ := h
  exact (event_alters hw hact).1.made _ ((marks?_of_brings? hbrings).trans (brought?_of_ok hread))

/-- What is held under a key after an event: what the event brings for it, or what was held under it
before, if the event leaves it alone. -/
theorem holds_after_iff (hw : c.Intact w) (hact : c.Proper w act) :
    c.Holds (c.event act w).after key content writable ↔
      (c.event act w).Commits key content writable ∨
        c.Holds w key content writable ∧ (c.event act w).Leaves c key := by
  obtain ⟨halters, -⟩ := event_alters hw hact
  have hbrought : ∀ content writable, (c.event act w).Commits key content writable →
      c.Holds (c.event act w).after key content writable := fun _ _ =>
    holds_after_of_commits hw hact
  generalize he : c.event act w = e at halters hbrought
  have hbefore : e.before = w := by rw [← he]; rfl
  have hact' : e.act = act := by rw [← he]; rfl
  by_cases hcommits : ∃ content writable, e.Commits key content writable
  · obtain ⟨content', writable', hcommit⟩ := hcommits
    constructor
    · intro h
      obtain ⟨rfl, rfl⟩ := h.unique (hbrought _ _ hcommit)
      exact .inl hcommit
    · rintro (hcommit' | ⟨-, hleaves⟩)
      · exact hbrought _ _ hcommit'
      · exact absurd hcommit (hleaves.commits _ _)
  -- with nothing new for the key, its entry can only be dropped, marked as used, or evicted
  have hfree : ∀ content writable, ¬ e.Commits key content writable := fun content writable h =>
    hcommits ⟨content, writable, h⟩
  rw [or_iff_right (hfree content writable)]
  by_cases hdrops : act.Drops key
  · refine iff_of_false (not_holds (halters.drops _ (dropped_entryName.2 hdrops))) fun h => ?_
    exact h.2.drops (hact'.symm ▸ hdrops)
  have hkept : c.Holds e.after key content writable → e.Leaves c key := fun hfound =>
    ⟨hfree, hact'.symm ▸ hdrops, fun h => absurd (hfound.entry?.symm.trans h.after) nofun⟩
  by_cases hmarks : ∃ made, c.marks? w act = some made ∧ made.name = entryName key
  · obtain ⟨made, hmarks, hname⟩ := hmarks
    have hafter : c.Holds e.after key made.content made.writable := by
      unfold Holds
      rw [← hname]
      exact halters.made made hmarks
    have hheld : c.Holds w key made.content made.writable := by
      rcases marks?_eq_some hmarks hname with ⟨source, hbrings, hread, hwritable⟩ | ⟨-, hheld⟩
      · exact absurd ⟨source, hact'.symm ▸ hbrings, hbefore.symm ▸ hread, hbefore.symm ▸ hwritable⟩
          (hfree made.content made.writable)
      · exact hheld
    refine ⟨fun h => ⟨?_, hkept h⟩, fun h => ?_⟩
    · obtain ⟨rfl, rfl⟩ := h.unique hafter
      exact hheld
    · obtain ⟨rfl, rfl⟩ := h.1.unique hheld
      exact hafter
  · have hothers := halters.others (entryName key) (fun made hmade hname =>
      hmarks ⟨made, hmade, hname⟩) (mt dropped_entryName.1 hdrops)
    rcases hothers with hsame | ⟨-, housted⟩
    · rw [← holds_congr hsame]
      exact ⟨fun h => ⟨h, hkept h⟩, And.left⟩
    · refine iff_of_false (not_holds housted.gone) fun ⟨hheld, hleaves⟩ => ?_
      refine hleaves.evicts ⟨?_, entry?_eq_none housted.gone, hact'.symm ▸ hdrops⟩
      rw [hbefore, hheld.entry?]
      rfl

/-! ## Lives -/

/-- Of the events that bring content for the key, the last one brings this, in a file that may be
written to or not, and none after it takes the entry away. -/
def LastCommitted (c : FileCache) (events : List CacheEvent) (key : String) (content : Bytes)
    (writable : Bool) : Prop :=
  ∃ earlier e later, events = earlier ++ e :: later ∧ e.Commits key content writable ∧
    ∀ e' ∈ later, e'.Leaves c key

theorem lastCommitted_concat {events : List CacheEvent} {e : CacheEvent} :
    c.LastCommitted (events ++ [e]) key content writable ↔
      e.Commits key content writable ∨
        c.LastCommitted events key content writable ∧ e.Leaves c key := by
  constructor
  · rintro ⟨earlier, e', later, heq, hcommits, hlater⟩
    rcases List.eq_nil_or_concat' later with rfl | ⟨later, last, rfl⟩
    · obtain ⟨-, hlast⟩ := List.append_inj' heq rfl
      obtain rfl := List.singleton_inj.1 hlast
      exact .inl hcommits
    · have hsplit : events ++ [e] = (earlier ++ e' :: later) ++ [last] := by
        rw [heq, List.append_assoc]
        rfl
      obtain ⟨hevents, hlast⟩ := List.append_inj' hsplit rfl
      obtain rfl := List.singleton_inj.1 hlast
      refine .inr ⟨⟨earlier, e', later, hevents, hcommits, fun e'' he'' => ?_⟩, ?_⟩
      · exact hlater e'' (List.mem_append_left _ he'')
      · exact hlater e (List.mem_append_right _ (List.mem_singleton_self e))
  · rintro (hcommits | ⟨⟨earlier, e', later, rfl, hcommits, hlater⟩, hleaves⟩)
    · exact ⟨events, e, [], rfl, hcommits, fun _ h => absurd h List.not_mem_nil⟩
    · refine ⟨earlier, e', later ++ [e], by rw [List.append_assoc]; rfl, hcommits, ?_⟩
      intro e'' he''
      rcases List.mem_append.1 he'' with hmem | hmem
      · exact hlater e'' hmem
      · rw [List.mem_singleton.1 hmem]
        exact hleaves

theorem LastCommitted.opens {events : List CacheEvent}
    (h : c.LastCommitted events key content writable) (hopens : ∀ e ∈ events, e.Opens) :
    writable = true := by
  obtain ⟨earlier, e, later, rfl, hcommits, -⟩ := h
  exact hcommits.opens (hopens e (List.mem_append_right _ List.mem_cons_self))

/-- The names of all entries are those of keys that are not empty and not too long. -/
def Named (c : FileCache) (w : World) : Prop :=
  ∀ (name : String) (node : CacheNode), (c.entries w)[name]? = some node →
    ∃ key, key ≠ "" ∧ Fits key ∧ name = entryName key

theorem named_after (hw : c.Intact w) (hact : c.Proper w act) (hnamed : c.Named w) :
    c.Named (c.event act w).after := by
  obtain ⟨halters, -⟩ := event_alters hw hact
  intro name node hnode
  by_cases hmarks : ∃ made, c.marks? w act = some made ∧ made.name = name
  · obtain ⟨made, hmarks, rfl⟩ := hmarks
    obtain ⟨key, hkey, hname⟩ := key?_of_marks? hmarks
    obtain ⟨hne, hfits⟩ := hact.key key hkey
    exact ⟨key, hne, hfits, hname⟩
  by_cases hdrops : dropped act name
  · exact absurd ((halters.drops name hdrops).symm.trans hnode) nofun
  rcases halters.others name (fun made hmade hname => hmarks ⟨made, hmade, hname⟩) hdrops with
    hsame | ⟨-, housted⟩
  · exact hnamed name node (hsame.symm.trans hnode)
  · exact absurd (housted.gone.symm.trans hnode) nofun

/-- What holds after any life of a cache that was empty. -/
structure Lived (c : FileCache) (events : List CacheEvent) (v : World) : Prop where
  intact : c.Intact v
  named : c.Named v
  held : ∀ key content writable,
    c.Holds v key content writable ↔ c.LastCommitted events key content writable
  events : ∀ e ∈ events, ∃ act w, e = c.event act w ∧ c.Intact w ∧ c.Proper w act

theorem Lives.lived {v : World} {events : List CacheEvent} (hw : c.Intact w)
    (hempty : ∀ name : String, (c.entries w)[name]? = none) (h : c.Lives w events v) :
    c.Lived events v := by
  induction h with
  | start =>
    refine ⟨hw, fun name node hnode => absurd ((hempty name).symm.trans hnode) nofun,
      fun key content writable => ?_, fun _ h => absurd h List.not_mem_nil⟩
    refine iff_of_false (not_holds (hempty _)) ?_
    rintro ⟨earlier, e, later, heq, -⟩
    exact absurd heq (by simp)
  | @elsewhere _ v u _ hspares ih =>
    refine ⟨⟨hspares.temps ih.intact.temps, ?_⟩, ?_, fun key content writable => ?_, ih.events⟩
    · rw [hspares.entries]
      exact ih.intact.isFile
    · unfold Named
      rw [hspares.entries]
      exact ih.named
    · have hentry : (c.entries u)[entryName key]? = (c.entries v)[entryName key]? := by
        rw [hspares.entries]
      rw [holds_congr hentry, ih.held]
  | @event events v _ act hproper ih =>
    refine ⟨(event_alters ih.intact hproper).1.intact, named_after ih.intact hproper ih.named,
      fun key content writable => ?_, fun e he => ?_⟩
    · rw [holds_after_iff ih.intact hproper, lastCommitted_concat, ih.held]
    · rcases List.mem_append.1 he with hmem | hmem
      · exact ih.events e hmem
      · exact ⟨act, v, List.mem_singleton.1 hmem, ih.intact, hproper⟩

/-! ## The map -/

/-- A look-up of the key finds its file, and the file has the content. -/
def Finds (c : FileCache) (v : World) (key : String) (content : Bytes) : Prop :=
  ∃ u, c.touch key v = .ok (some (.entry c.dir (entryName key))) u ∧
    u.read (.entry c.dir (entryName key)) = .ok content

/-- A look-up finds what is held, if that can be opened. -/
theorem finds_iff {v : World} (hv : c.Intact v) (hne : key ≠ "") (hfits : Fits key) :
    c.Finds v key content ↔ c.Holds v key content true := by
  constructor
  · rintro ⟨u, hfound, hcontent⟩
    by_cases hlocked : c.Locked v key
    · exact absurd ((touch_locked hv hfits hne hlocked).symm.trans hfound) nofun
    obtain ⟨u', hrun, halters⟩ := touch_run hv hne hfits hlocked
    obtain ⟨hpath, rfl⟩ := EStateM.Result.ok.inj (hrun.symm.trans hfound)
    obtain ⟨bytes, hopened, -⟩ := Option.map_eq_some_iff.1 hpath
    rw [hopened] at halters
    obtain ⟨t, hentry⟩ := halters.made _ rfl
    obtain rfl := Except.ok.inj ((read_entry hentry).symm.trans hcontent)
    exact exists_of_opened? hopened
  · rintro ⟨t, hentry⟩
    refine ⟨_, touch_hit hv hfits hne hentry, ?_⟩
    obtain ⟨t', hentry'⟩ :=
      (alters_insert hv ⟨entryName key, content, true⟩ v.now (v.now + 1)).made _ rfl
    exact read_entry hentry'

/-- A look-up is denied what is held and cannot be opened. -/
theorem denied_iff {v : World} (hv : c.Intact v) (hne : key ≠ "") (hfits : Fits key) :
    c.touch key v = .error (.io .permissionDenied) v ↔ ∃ content, c.Holds v key content false := by
  refine ⟨fun hdenied => ?_, touch_locked hv hfits hne⟩
  by_contra hopen
  obtain ⟨u, hrun, -⟩ := touch_run hv hne hfits hopen
  exact absurd (hrun.symm.trans hdenied) nofun

/-- A look-up finds nothing if nothing is held. -/
theorem misses {v : World} (hv : c.Intact v) (hne : key ≠ "") (hfits : Fits key)
    (hnone : ∀ content writable, ¬ c.Holds v key content writable) :
    ∃ u, c.touch key v = .ok none u := by
  rcases hv.entry fun ⟨content, hlocked⟩ => hnone content false hlocked with
    hmiss | ⟨content, t, hhit⟩
  · exact ⟨v, touch_miss hv hfits hne hmiss⟩
  · exact absurd ⟨t, hhit⟩ (hnone content true)

/-- The name is that of a file right in the directory of a cache, and not that of the directory for
temporary files. -/
structure IsEntryName (name : String) : Prop where
  digits : ∀ ch ∈ name.toList, Hex.isLowerDigit ch = true
  slash : '/' ∉ name.toList
  dots : name ≠ "" ∧ name ≠ "." ∧ name ≠ ".."
  temp : name ≠ CacheDir.tempName
  short : name.length ≤ maxNameLength

theorem isEntryName (hne : key ≠ "") (hfits : Fits key) : IsEntryName (entryName key) := by
  have hdigits : ∀ ch ∈ (entryName key).toList, Hex.isLowerDigit ch = true := by
    intro ch hch
    unfold entryName Hex.encode at hch
    rw [String.toList_ofList] at hch
    exact Hex.isLowerDigit_of_mem_encodeChars hch
  have hother : ∀ {name : String} (ch : Char), ch ∈ name.toList → Hex.isLowerDigit ch = false →
      entryName key ≠ name := by
    rintro name ch hch hno rfl
    exact absurd ((hdigits ch hch).symm.trans hno) nofun
  exact {
    digits := hdigits
    slash := fun h => absurd (hdigits '/' h) (by decide)
    dots := ⟨entryName_ne_empty hne, hother '.' (by decide) (by decide),
      hother '.' (by decide) (by decide)⟩
    temp := hother 't' (by decide) (by decide)
    short := Nat.le_of_not_lt (fits_iff.1 hfits) }

/-- What an event does, whatever was before it. -/
structure Lawful (c : FileCache) (e : CacheEvent) : Prop where
  /-- It goes through, unless it cannot read what it brings or open what it looks up. -/
  answer : e.answer = c.replies e.before e.act
  /-- If it fails, it changes nothing. -/
  failed : ∀ failure, e.answer = .error failure → e.after = e.before
  /-- The entries of other keys stay, unless it drops all or evicts them. -/
  others : ∀ key, e.act.key? ≠ some key → e.act ≠ .clear →
    (c.entries e.after)[entryName key]? = (c.entries e.before)[entryName key]? ∨ e.Evicts c key
  /-- Only evictions evict, and those that come with making the entry of another key. -/
  evicting : ∀ key, e.Evicts c key →
    e.act = .evict ∨ ∃ other content writable, other ≠ key ∧ e.Commits other content writable
  /-- What is evicted is old enough and was used no later than what stays. -/
  ousted : ∀ key, e.Evicts c key →
    c.Ousted (c.marks? e.before e.act) e.before e.after (entryName key)

/-- An act that is about another key, and does not drop all, neither makes nor drops the entry. -/
theorem untouched (hkey : act.key? ≠ some key) (hclear : act ≠ .clear) :
    (∀ made, c.marks? w act = some made → made.name ≠ entryName key) ∧ ¬ act.Drops key := by
  constructor
  · intro made hmade hname
    obtain ⟨other, hother, hname'⟩ := key?_of_marks? hmade
    exact hkey (entryName_inj (hname'.symm.trans hname) ▸ hother)
  · cases act with
    | remove other =>
      rintro rfl
      exact hkey rfl
    | clear => exact absurd rfl hclear
    | _ => exact id

/-- An event that takes an entry away without being told to evicts it. -/
theorem ousted_of_evicts (hw : c.Intact w) (hact : c.Proper w act)
    (hevicts : (c.event act w).Evicts c key) :
    (∀ made, c.marks? w act = some made → made.name ≠ entryName key) ∧ Evicting w act ∧
      c.Ousted (c.marks? w act) w (c.event act w).after (entryName key) := by
  obtain ⟨halters, -⟩ := event_alters hw hact
  have hgone : (c.entries (c.event act w).after)[entryName key]? = none := by
    cases hnode : (c.entries (c.event act w).after)[entryName key]? with
    | none => rfl
    | some node =>
      obtain ⟨bytes, t, mode, rfl⟩ := halters.intact.isFile _ node hnode
      exact absurd ((entry?_eq_some hnode).symm.trans hevicts.after) nofun
  have hmarks : ∀ made, c.marks? w act = some made → made.name ≠ entryName key := by
    intro made hmade hname
    obtain ⟨t, hentry⟩ := halters.made _ hmade
    rw [hname] at hentry
    exact absurd (hgone.symm.trans hentry) nofun
  refine ⟨hmarks, (halters.others _ hmarks (mt dropped_entryName.1 hevicts.drops)).resolve_left ?_⟩
  intro hsame
  have hsome := hevicts.before
  rw [show c.entry? (c.event act w).before key = none from
    entry?_eq_none (hsame.symm.trans hgone)] at hsome
  exact absurd hsome nofun

theorem lawful_event (hw : c.Intact w) (hact : c.Proper w act) : c.Lawful (c.event act w) := by
  obtain ⟨halters, hanswer, hfailed⟩ := event_alters hw hact
  refine ⟨hanswer, hfailed, fun key hkey hclear => ?_, fun key hevicts => ?_, fun key hevicts =>
    (ousted_of_evicts hw hact hevicts).2.2⟩
  · obtain ⟨hmarks, hdrops⟩ := untouched (c := c) (w := w) hkey hclear
    refine (halters.others _ hmarks (mt dropped_entryName.1 hdrops)).imp_right ?_
    rintro ⟨-, housted⟩
    obtain ⟨bytes, used, mode, hfile, -⟩ := housted.aged
    refine ⟨?_, entry?_eq_none housted.gone, hdrops⟩
    show (c.entry? w key).isSome
    rw [entry?_eq_some hfile]
    rfl
  · obtain ⟨hmarks, hevicting, -⟩ := ousted_of_evicts hw hact hevicts
    refine hevicting.imp_right ?_
    rintro ⟨other, source, content, hbrings, hread⟩
    refine ⟨other, content, _, ?_, source, hbrings, hread, rfl⟩
    rintro rfl
    exact hmarks _ ((marks?_of_brings? hbrings).trans (brought?_of_ok hread)) rfl

end FileCache

end BlobVault
