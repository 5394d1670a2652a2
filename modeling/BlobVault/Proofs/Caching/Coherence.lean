import BlobVault.Proofs.Caching.Run
import BlobVault.Proofs.Caching.Sources

/-!
# Coherence of a cache

A cache is coherent if every entry is that of an accepted key and has all the bytes, and only those,
that the inner store holds under it. Then what the caching store serves is what the inner store
holds. Every operation keeps a cache coherent, whatever requests fail on the way, as long as faults
do not lie about presence and writes to a held key carry the bytes held.

An entry that was made of a file that may not be written to cannot be opened. An operation that looks
such an entry up fails, and changes nothing. Where no such file is brought, there is no such entry:
`CachedStore.Serving` follows both matters at once.

1. `CachedStore.Coherent`, `CachedStore.Serving`: the invariants.
2. `Serving.fetched`, `Serving.written`, `Serving.deleted` and the like: what keeps them.
   `Fresh.serving`: where they begin.
3. `CachedStore.Admissible`, `CachedStore.Answers`: operations, and the answers that fit the inner
   store.
4. `CachedStore.perform_blocked`, `CachedStore.perform_coherent`: one operation.
5. `CachedStore.trace_coherent`, `CachedStore.trace_unblocked`: whole runs.
-/

namespace BlobVault

open KeyStrategy (Accepted)
open FileCache (Fits Turns Adds Thins entryName)

/-- What the operation brings may be written to. -/
def Operation.Opens (w : World) : Operation → Prop
  | .write request => request.opens w = true
  | _ => True

namespace CachedStore

variable {s : CachedStore} {w v u : World} {key : String} {content : Bytes}

/-- Every entry of the cache has the bytes that the inner store holds under the key of the entry. -/
structure Coherent (s : CachedStore) (w : World) : Prop where
  intact : s.cache.Intact w
  entry : ∀ (name : String) (content : Bytes) (t : Instant) (writable : Bool),
    (s.cache.entries w)[name]? = some (.file content t writable) →
      ∃ key, Accepted key ∧ Fits key ∧ name = entryName key ∧ s.inner.hold? w key = some content

/-- The cache is coherent and, where that is asked for, all its entries can be opened. -/
structure Serving (s : CachedStore) (opens : Prop) (w : World) : Prop extends s.Coherent w where
  unlocked : opens → s.cache.Unlocked w

namespace Coherent

/-- What the cache has for a key, the inner store holds. -/
theorem hold?_of_cached (h : s.Coherent w) (hcached : s.cached? w key = some content) :
    s.inner.hold? w key = some content := by
  unfold cached? at hcached
  split at hcached
  · rename_i bytes t writable hnode
    obtain rfl := Option.some.inj hcached
    obtain ⟨other, -, -, hname, hheld⟩ := h.entry _ _ t writable hnode
    rwa [FileCache.entryName_inj hname]
  · exact absurd hcached nofun

/-- A coherent cache is not seen by readers. -/
theorem serves?_eq (h : s.Coherent w) (key : String) :
    s.serves? w key = s.inner.hold? w key := by
  unfold serves?
  cases hcached : s.cached? w key with
  | none => exact Option.none_or
  | some content => rw [Option.some_or, h.hold?_of_cached hcached]

end Coherent

namespace Serving

variable {opens : Prop}

/-- Entries may go, as long as the inner store keeps what the others have. -/
theorem thin (h : s.Serving opens w) (hintact : s.cache.Intact v)
    (hthin : Thins (s.cache.entries w) (s.cache.entries v))
    (hheld : ∀ key content, Accepted key → Fits key →
      (∃ node : CacheNode, (s.cache.entries v)[entryName key]? = some node) →
      s.inner.hold? w key = some content → s.inner.hold? v key = some content) :
    s.Serving opens v := by
  refine ⟨⟨hintact, fun name content t writable hnode => ?_⟩, fun hopens =>
    (h.unlocked hopens).thin hthin⟩
  obtain ⟨key, hkey, hfits, rfl, hcontent⟩ := h.entry name content t writable (hthin name _ hnode)
  exact ⟨key, hkey, hfits, rfl, hheld key content hkey hfits ⟨_, hnode⟩ hcontent⟩

/-- One entry may come, if it has what the inner store holds and can be opened. -/
theorem add (h : s.Serving opens w) (hintact : s.cache.Intact v) (hkey : Accepted key)
    (hfits : Fits key) {writable : Bool}
    (hadds : Adds (s.cache.entries w) (entryName key) content (s.cache.entries v) writable)
    (hwritable : opens → writable = true)
    (hself : s.inner.hold? v key = some content)
    (hheld : ∀ other held, Accepted other → s.inner.hold? w other = some held →
      s.inner.hold? v other = some held) :
    s.Serving opens v := by
  refine ⟨⟨hintact, fun name bytes t mode hnode => ?_⟩, fun hopens => ?_⟩
  swap
  · rw [hwritable hopens] at hadds
    exact (h.unlocked hopens).add hadds
  by_cases hname : entryName key = name
  · obtain ⟨t', hentry⟩ := hadds.self
    rw [← hname, hentry] at hnode
    obtain ⟨rfl, -⟩ := CacheNode.file.inj (Option.some.inj hnode)
    exact ⟨key, hkey, hfits, hname.symm, hself⟩
  · obtain ⟨other, hother, hfits', hname', hcontent⟩ :=
      h.entry name bytes t mode (hadds.others name hname _ hnode)
    exact ⟨other, hother, hfits', hname', hheld other bytes hother hcontent⟩

/-! ## What keeps a cache coherent -/

theorem unchanged (h : s.Serving opens w) (hv : s.Unchanged w v) : s.Serving opens v := by
  refine h.thin (hv.intact h.intact) ?_ fun key content _ _ _ hheld => ?_
  · rw [Turns.entries hv h.intact.dir]
    exact fun _ _ hnode => hnode
  · rwa [PlainStore.hold?_of_turns hv]

theorem fetched (h : s.Serving opens w) (hkey : Accepted key) (hfits : Fits key)
    (hcontent : s.inner.hold? w key = some content) (hv : s.Fetched w key content v) :
    s.Serving opens v := by
  have hintact := hv.intact h.intact
  obtain ⟨es, hturns, hadds⟩ := hv
  rw [← hturns.entries h.intact.dir] at hadds
  refine h.add hintact hkey hfits hadds (fun _ => rfl) ?_ fun other held _ hheld => ?_
  · rw [PlainStore.hold?_of_turns hturns, hcontent]
  · rwa [PlainStore.hold?_of_turns hturns]

theorem accept (h : s.Serving opens w) (hkey : Accepted key) (content : Bytes) :
    s.Serving opens (s.inner.accept w key content) := by
  refine h.thin (s.inner.intact_accept h.intact key content) ?_
    fun other held hother _ _ hheld => ?_
  · rw [s.inner.entries_accept]
    exact fun _ _ hnode => hnode
  · exact PlainStore.hold?_accept_of_held s.canonical.closed hkey hother hheld content

theorem written (h : s.Serving opens w) (hkey : Accepted key) {writable : Bool}
    (hwritable : opens → writable = true)
    (hcontent : ∀ held, s.inner.hold? w key = some held → content = held)
    (hv : s.Written w key content writable v) : s.Serving opens v := by
  obtain ⟨es, hturns, hadds⟩ := hv
  have haccept := h.accept hkey content
  rw [← s.inner.entries_accept s.cache w key content] at hadds
  have hentries := hturns.entries haccept.intact.dir
  rcases hadds with ⟨hfits, hadds⟩ | ⟨-, rfl⟩
  · have hintact := hturns.intact haccept.intact (hadds.isFile haccept.intact.isFile)
    rw [← hentries] at hadds
    refine haccept.add hintact hkey hfits hadds hwritable ?_ fun other held _ hheld => ?_
    · rw [PlainStore.hold?_of_turns hturns, PlainStore.hold?_accept_self]
      cases hheld : s.inner.hold? w key with
      | none => rfl
      | some held => exact congrArg some (hcontent held hheld).symm
    · rwa [PlainStore.hold?_of_turns hturns]
  · exact haccept.unchanged hturns

theorem deleted (h : s.Serving opens w) (hkey : Accepted key) (hv : s.Deleted w key v) :
    s.Serving opens v := by
  obtain ⟨es, hthins, hnone, hturns⟩ := hv
  have hes : ∀ (name : String) (node : CacheNode), es[name]? = some node → node.IsFile :=
    fun name node hnode => h.intact.isFile name node (hthins name node hnode)
  rcases hturns with hturns | ⟨hturns, -⟩
  · have hdrop : s.cache.Intact (s.inner.drop w key) := s.inner.intact_drop h.intact key
    have hentries := hturns.entries hdrop.dir
    refine h.thin (hturns.intact hdrop hes) ?_ fun other content hother _ hnode hcontent => ?_
    · rwa [hentries]
    · rw [PlainStore.hold?_of_turns hturns,
        PlainStore.hold?_drop_of_ne s.canonical.closed hkey hother]
      · exact hcontent
      · rintro rfl
        obtain ⟨node, hnode⟩ := hnode
        rw [hentries, hnone] at hnode
        exact absurd hnode nofun
  · refine h.thin (hturns.intact h.intact hes) ?_ fun other content _ _ _ hcontent => ?_
    · rwa [hturns.entries h.intact.dir]
    · rwa [PlainStore.hold?_of_turns hturns]

/-- A file of the caller's is no concern of the cache. -/
theorem place (h : s.Serving opens w) {dest : LocalPath} (hdest : dest.IsOutside)
    (content : Bytes) : s.Serving opens (w.place dest content) := by
  cases dest with
  | caller name =>
    refine h.thin ⟨h.intact.temps, h.intact.isFile⟩ (fun _ _ hnode => hnode) ?_
    intro key held _ _ _ hheld
    cases hinner : s.inner <;> rw [hinner] at hheld <;> exact hheld
  | detached => exact h
  | temp _ _ => exact hdest.elim
  | entry _ _ => exact hdest.elim

theorem cleared (h : s.Serving opens w) (hv : s.Cleared w v) : s.Serving opens v := by
  obtain ⟨x, es, hturns, hnone, hshares⟩ := hv
  have hempty : ∀ name : String, (s.cache.entries v)[name]? = none := by
    intro name
    have : s.cache.entries v = s.cache.entries x := by
      rw [hshares.rest]
      rfl
    rw [this, hturns.entries h.intact.dir, hnone]
  refine ⟨⟨⟨?_, fun name node hnode => ?_⟩, fun name content t writable hnode => ?_⟩,
    fun _ name content t hnode => ?_⟩
  · obtain ⟨files, hfiles⟩ := h.intact.temps
    refine ⟨files, ?_⟩
    rw [hshares.rest]
    exact (hturns.temps? _).trans hfiles
  all_goals exact absurd ((hempty name).symm.trans hnode) nofun

theorem grows (h : s.Serving opens w) (hw : w.Honest) (hv : s.Grows w v) :
    s.Serving opens v := by
  have hentries : s.cache.entries v = s.cache.entries w := by
    unfold FileCache.entries
    rw [hv.cache hw]
  refine h.thin ⟨?_, ?_⟩ ?_ fun key content hkey _ _ hcontent =>
    hv.held hw key content hkey hcontent
  · obtain ⟨files, hfiles⟩ := h.intact.temps
    refine ⟨files, ?_⟩
    show (v.caches[s.cache.dir]?).bind _ = _
    rw [hv.cache hw]
    exact hfiles
  · rw [hentries]
    exact h.intact.isFile
  · rw [hentries]
    exact fun _ _ hnode => hnode

theorem copied {sourceKey : String} {move : Bool} (h : s.Serving opens w) (hkey : Accepted key)
    (hsource : Accepted sourceKey) (hfits : Fits sourceKey)
    (hv : s.Copied w key sourceKey move v) : s.Serving opens v := by
  obtain ⟨content, u, x, -, hu, hx, hend⟩ := hv
  have hfetched : s.Serving opens u := by
    rcases hu with hu | ⟨hserves, hu⟩
    · exact h.unchanged hu
    · rw [h.serves?_eq] at hserves
      exact h.fetched hsource hfits hserves hu
  have hstored : s.Serving opens x := (hfetched.accept hkey content).unchanged (.of_looks hx)
  rcases hend with ⟨-, -, hv⟩ | ⟨-, rfl⟩
  · exact hstored.deleted hsource hv
  · exact hstored

end Serving

/-! ## What becomes of faults -/

theorem Unchanged.follows (h : s.Unchanged w v) : w.Follows v := Turns.follows h

theorem Fetched.follows (h : s.Fetched w key content v) : w.Follows v := by
  obtain ⟨es, hturns, -⟩ := h
  exact hturns.follows

theorem Written.follows {opens : Bool} (h : s.Written w key content opens v) : w.Follows v := by
  obtain ⟨es, hturns, -⟩ := h
  exact (s.inner.follows_accept w key content).trans hturns.follows

theorem Deleted.follows (h : s.Deleted w key v) : w.Follows v := by
  obtain ⟨es, -, -, hturns | ⟨hturns, -⟩⟩ := h
  · exact (s.inner.follows_drop w key).trans hturns.follows
  · exact hturns.follows

theorem Cleared.follows (h : s.Cleared w v) : w.Follows v := by
  obtain ⟨x, es, hturns, -, hshares⟩ := h
  exact hturns.follows.trans hshares.follows

theorem Copied.follows {sourceKey : String} {move : Bool} (h : s.Copied w key sourceKey move v) :
    w.Follows v := by
  obtain ⟨content, u, x, -, hu, hx, hend⟩ := h
  have hstored : w.Follows x := by
    rcases hu with hu | ⟨-, hu⟩
    · exact hu.follows.trans ((s.inner.follows_accept u key content).trans hx.follows)
    · exact hu.follows.trans ((s.inner.follows_accept u key content).trans hx.follows)
  rcases hend with ⟨-, -, hv⟩ | ⟨-, rfl⟩
  · exact hstored.trans hv.follows
  · exact hstored

/-! ## A new cache -/

/-- The cache has just been set up in a directory of its own. -/
def Fresh (s : CachedStore) (w : World) : Prop :=
  ∃ before : World, before.caches[s.cache.dir]? = none ∧ s.cache.prepare before = .ok () w

/-- A cache without entries is coherent, and has none that cannot be opened. -/
theorem Fresh.serving (h : s.Fresh w) (opens : Prop) : s.Serving opens w := by
  obtain ⟨before, hnew, hprepare⟩ := h
  have hw : w = before.setCache s.cache.dir { temps? := some ∅ } := by
    unfold FileCache.prepare at hprepare
    rw [run_get_bind] at hprepare
    split at hprepare
    · exact absurd hprepare nofun
    · rw [Std.ExtTreeMap.getD_eq_getD_getElem?, hnew] at hprepare
      exact (EStateM.Result.ok.inj hprepare).2.symm
  have hdir : w.caches[s.cache.dir]? = some { temps? := some ∅ } := by
    rw [hw]
    exact World.caches_setCache_self _ _ _
  refine ⟨⟨FileCache.intact_of_new hdir, fun name content t writable hnode => ?_⟩,
    fun _ name content t hnode => ?_⟩
  all_goals
    rw [FileCache.entries_eq hdir] at hnode
    exact absurd (Std.ExtTreeMap.getElem?_empty.symm.trans hnode) nofun

theorem Fresh.intact (h : s.Fresh w) : s.cache.Intact w := (h.serving False).intact

/-! ## One operation -/

/-- An operation as the caching store expects it: keys are accepted and have entry names, the file
of a write is not temporary and that of a read is the caller's, another source of a copy is apart,
and a write to a key that the inner store holds carries the bytes held. -/
def Admissible (s : CachedStore) (w : World) : Operation → Prop
  | .write request => request.IsLasting ∧
      ∀ key content, request.plan w = .ok (key, content) → (Accepted key ∧ Fits key) ∧
        ∀ bytes held, content = .ok bytes → s.inner.hold? w key = some held → bytes = held
  | .read key dest => (Accepted key ∧ Fits key) ∧ dest.IsOutside
  | .stream key | .file key | .contains key | .delete key => Accepted key ∧ Fits key
  | .copy key source? sourceKey _ => (Accepted key ∧ Fits key) ∧
      (Accepted sourceKey ∧ Fits sourceKey) ∧
      ∀ source, source? = some source → s.Apart source
  | .clear | .evict => True

/-- The answer to an operation, and the file it has written, fit what the inner store held. -/
def Answers (s : CachedStore) (w : World) (operation : Operation) (a : Answer) (v : World) : Prop :=
  match operation with
  | .read key dest => (a = .found false ∧ s.inner.hold? w key = none) ∨
      (a = .found true ∧ ∃ content, s.inner.hold? w key = some content ∧ v.read dest = .ok content)
  | .stream key => a = .content ((s.inner.hold? w key).map fun content => (content, none))
  | .file key => a = .file ((s.inner.hold? w key).elim .missing .found)
  | .contains key => a = .found (s.inner.hold? w key).isSome
  | .write _ | .delete _ | .copy _ _ _ _ | .clear | .evict => True

/-- The cache is coherent, and faults do not lie. -/
def Sound (s : CachedStore) (opens : Prop) (w : World) : Prop := s.Serving opens w ∧ w.Honest

/-- How an operation ends that keeps the cache coherent. -/
def EndsSound (s : CachedStore) (opens : Prop) (w : World) (operation : Operation) : Prop :=
  Ensures (s.toStore.perform operation) w
    (fun a v => s.Sound opens v ∧ s.Answers w operation a v) fun _ v => s.Sound opens v

variable {opens : Prop}

theorem Sound.unchanged (h : s.Sound opens w) (hv : s.Unchanged w v) : s.Sound opens v :=
  ⟨h.1.unchanged hv, hv.follows.honest h.2⟩

theorem Sound.fetched (h : s.Sound opens w) (hkey : Accepted key ∧ Fits key)
    (hcontent : s.serves? w key = some content) (hv : s.Fetched w key content v) :
    s.Sound opens v := by
  rw [h.1.serves?_eq] at hcontent
  exact ⟨h.1.fetched hkey.1 hkey.2 hcontent hv, hv.follows.honest h.2⟩

theorem Sound.place (h : s.Sound opens w) {dest : LocalPath} (hdest : dest.IsOutside)
    (content : Bytes) : s.Sound opens (w.place dest content) :=
  ⟨h.1.place hdest content, (w.follows_place dest content).honest h.2⟩

theorem Sound.setNow (h : s.Sound opens w) (now : Instant) : s.Sound opens { w with now } := by
  refine ⟨h.1.thin ⟨h.1.intact.temps, h.1.intact.isFile⟩ (fun _ _ hnode => hnode) ?_, h.2⟩
  intro key held _ _ _ hheld
  cases hinner : s.inner <;> rw [hinner] at hheld <;> exact hheld

theorem endsSound_read (h : s.Sound opens w) (hkey : Accepted key ∧ Fits key)
    (hopen : ¬ s.cache.Locked w key) {dest : LocalPath} (hdest : dest.IsOutside) :
    s.EndsSound opens w (.read key dest) := by
  refine Ensures.map ((readInto_spec h.1.intact (.of_world h.2 _) hkey.1 hkey.2 hopen hdest).mono
    (fun _ _ h => h) ?_) ?_
  · rintro _ v (⟨-, hv⟩ | ⟨-, content, hcontent, hv⟩)
    · exact h.unchanged hv
    · exact h.fetched hkey hcontent hv
  · rintro found v (⟨rfl, content, u, hcontent, hu, hwritable, rfl⟩ | ⟨rfl, hnone, hv⟩)
    · have hsound := h.fetched hkey hcontent hu
      rw [h.1.serves?_eq] at hcontent
      obtain ⟨es, hturns, -⟩ := hu
      have hread := World.read_place (hturns.writable hdest hwritable) content
      exact ⟨hsound.place hdest content, .inr ⟨rfl, content, hcontent, hread⟩⟩
    · rw [h.1.serves?_eq] at hnone
      exact ⟨h.unchanged hv, .inl ⟨rfl, hnone⟩⟩

theorem endsSound_stream (h : s.Sound opens w) (hkey : Accepted key ∧ Fits key)
    (hopen : ¬ s.cache.Locked w key) : s.EndsSound opens w (.stream key) := by
  refine Ensures.bind ((stream_spec h.1.intact (.of_world h.2 _) hkey.1 hkey.2 hopen).mono
    (fun _ _ h => h) fun _ v hv => h.unchanged hv.2) ?_
  rintro stream? v (⟨content, stream, rfl, hcontent, hv, hdrain⟩ | ⟨rfl, hnone, hv⟩)
  · have hsound := h.fetched hkey hcontent hv
    rw [h.1.serves?_eq] at hcontent
    refine Ensures.bind_ok hdrain (Ensures.pure ⟨hsound, ?_⟩)
    show _ = Answer.content (Option.map _ _)
    rw [hcontent]
    rfl
  · rw [h.1.serves?_eq] at hnone
    refine Ensures.pure ⟨h.unchanged hv, ?_⟩
    show _ = Answer.content (Option.map _ _)
    rw [hnone]
    rfl

theorem endsSound_file (h : s.Sound opens w) (hkey : Accepted key ∧ Fits key)
    (hopen : ¬ s.cache.Locked w key) : s.EndsSound opens w (.file key) := by
  refine Ensures.bind ((localFile_spec h.1.intact (.of_world h.2 _) hkey.1 hkey.2 hopen).mono
    (fun _ _ h => h) fun _ v hv => h.unchanged hv.2) ?_
  rintro lookup v (⟨content, rfl, hcontent, hv⟩ | ⟨rfl, hnone, hv⟩)
  · have hsound := h.fetched hkey hcontent hv
    rw [h.1.serves?_eq] at hcontent
    refine Ensures.bind_ok (fileContent_ok (hv.read h.1.intact)) (Ensures.pure ⟨hsound, ?_⟩)
    show _ = Answer.file (Option.elim _ _ _)
    rw [hcontent]
    rfl
  · rw [h.1.serves?_eq] at hnone
    refine Ensures.pure ⟨h.unchanged hv, ?_⟩
    show _ = Answer.file (Option.elim _ _ _)
    rw [hnone]
    rfl

theorem endsSound_contains (h : s.Sound opens w) (hkey : Accepted key ∧ Fits key)
    (hopen : ¬ s.cache.Locked w key) : s.EndsSound opens w (.contains key) := by
  refine Ensures.map ((contains_spec h.1.intact (.of_world h.2 _) hkey.1 hkey.2 hopen).mono
    (fun _ _ h => h) fun _ v hv => h.unchanged hv.2) ?_
  rintro b v ⟨rfl, hv⟩
  rw [h.1.serves?_eq]
  refine ⟨?_, rfl⟩
  rcases hv with hv | ⟨content, hcached, hv⟩
  · exact h.unchanged hv
  · refine h.fetched hkey ?_ hv
    rw [h.1.serves?_eq, h.1.hold?_of_cached hcached]

theorem endsSound_write (h : s.Sound opens w) {request : WriteRequest}
    (hrequest : s.Admissible w (.write request)) (hopens : opens → request.opens w = true) :
    s.EndsSound opens w (.write request) := by
  obtain ⟨hlasting, hplan⟩ := hrequest
  refine Ensures.map ((write_spec h.1.intact (.of_world h.2 _) hlasting fun key content hkey =>
    (hplan key content hkey).1.1.ne_empty).mono (fun _ _ h => h)
    fun _ v hv => h.unchanged hv.1) ?_
  rintro key v (⟨content, hkey, hv⟩ | ⟨cause, -, -, hv⟩)
  · obtain ⟨haccepted, hheld⟩ := hplan key _ hkey
    exact ⟨⟨h.1.written haccepted.1 hopens (fun held => hheld content held rfl) hv,
      hv.follows.honest h.2⟩, trivial⟩
  · exact ⟨h.unchanged hv, trivial⟩

theorem endsSound_delete (h : s.Sound opens w) (hkey : Accepted key) :
    s.EndsSound opens w (.delete key) := by
  refine Ensures.bind ((delete_spec h.1.intact key).mono (fun _ _ h => h) fun _ _ h => h.elim) ?_
  exact fun _ v hv => Ensures.pure ⟨⟨h.1.deleted hkey hv, hv.follows.honest h.2⟩, trivial⟩

theorem endsSound_copySelf (h : s.Sound opens w) {sourceKey : String} {move : Bool}
    (hkey : Accepted key) (hsourceKey : Accepted sourceKey ∧ Fits sourceKey)
    (hopen : s.toStore.copiesInside s.toStore = false → ¬ s.cache.Locked w sourceKey) :
    s.EndsSound opens w (.copy key none sourceKey move) := by
  refine Ensures.map ((copySelf_spec h.1.intact (.of_world h.2 _) hsourceKey.1 hsourceKey.2 hopen
    key move).mono (fun _ _ h => h) ?_) ?_
  · rintro _ v ⟨-, hv | ⟨content, hcontent, hv⟩⟩
    · exact h.unchanged hv
    · exact h.fetched hsourceKey hcontent hv
  · rintro _ v (⟨-, -, hv⟩ | ⟨-, hv⟩)
    · exact ⟨h.unchanged hv, trivial⟩
    · exact ⟨⟨h.1.copied hkey hsourceKey.1 hsourceKey.2 hv, hv.follows.honest h.2⟩, trivial⟩

theorem endsSound_copyFrom (hsole : s.Sole) (h : s.Sound opens w) {source : Store}
    {sourceKey : String} {move : Bool} (hkey : Accepted key) (hsourceKey : Accepted sourceKey)
    (hsource : s.Apart source) : s.EndsSound opens w (.copy key (some source) sourceKey move) := by
  have hgrows : ∀ v, s.Grows w v → s.Sound opens v := fun v hv =>
    ⟨h.1.grows h.2 hv, hv.honest h.2⟩
  refine Ensures.map ((lockstep_copyFrom hsole hsource hkey hsourceKey move).ensures
    (World.Agree.refl _ w)) ?_ |>.mono (fun _ _ h => h) fun _ v hv => hgrows v hv
  exact fun _ v hv => ⟨hgrows v hv, trivial⟩

theorem endsSound_clear (h : s.Sound opens w) : s.EndsSound opens w .clear := by
  have hsound : ∀ v, s.Cleared w v → s.Sound opens v := fun v hv =>
    ⟨h.1.cleared hv, hv.follows.honest h.2⟩
  refine Ensures.bind ((clear_spec h.1.intact).mono (fun _ _ h => h) fun _ v hv => hsound v hv) ?_
  exact fun _ v hv => Ensures.pure ⟨hsound v hv, trivial⟩

theorem endsSound_evict (h : s.Sound opens w) : s.EndsSound opens w .evict := by
  obtain ⟨stats, v, es, hevict, hturns, hthins⟩ := FileCache.evict_spec h.1.intact
  refine Ensures.bind_ok hevict (Ensures.pure ⟨⟨?_, hturns.follows.honest h.2⟩, trivial⟩)
  have hentries := hturns.entries h.1.intact.dir
  refine h.1.thin (hturns.intact h.1.intact fun name node hnode =>
    h.1.intact.isFile name node (hthins name node hnode)) ?_ fun key content _ _ _ hheld => ?_
  · rwa [hentries]
  · rwa [PlainStore.hold?_of_turns hturns]

/-- The operation looks up the entry of a key. A copy within the store does so, unless the container
copies. -/
def LooksUp (s : CachedStore) (operation : Operation) (key : String) : Prop :=
  match operation with
  | .read k _ | .stream k | .file k | .contains k => k = key
  | .copy _ none sourceKey _ => s.toStore.copiesInside s.toStore = false ∧ sourceKey = key
  | .copy _ (some _) _ _ | .write _ | .delete _ | .clear | .evict => False

/-- The operation looks up an entry that is there and cannot be opened. -/
def Blocked (s : CachedStore) (w : World) (operation : Operation) : Prop :=
  ∃ key, s.LooksUp operation key ∧ s.cache.Locked w key

/-- An operation that is blocked fails, and changes nothing. -/
theorem perform_blocked (hintact : s.cache.Intact w) {operation : Operation}
    (hop : s.Admissible w operation) (h : s.Blocked w operation) :
    s.toStore.perform operation w = .error (.io .permissionDenied) w := by
  obtain ⟨key, hlooks, hlocked⟩ := h
  cases operation with
  | read k dest =>
    obtain rfl : k = key := hlooks
    obtain ⟨haccepted, hfits⟩ := hop.1
    exact run_bind_error (FileCache.readInto_locked s.name _ hintact haccepted.splitKey
      haccepted.ne_empty hfits hlocked dest) _
  | stream k =>
    obtain rfl : k = key := hlooks
    obtain ⟨haccepted, hfits⟩ := hop
    exact run_bind_error (FileCache.openStream_locked s.name _ hintact haccepted.splitKey
      haccepted.ne_empty hfits hlocked) _
  | file k =>
    obtain rfl : k = key := hlooks
    obtain ⟨haccepted, hfits⟩ := hop
    exact run_bind_error (FileCache.localFile_locked s.name _ hintact haccepted.splitKey
      haccepted.ne_empty hfits hlocked) _
  | contains k =>
    obtain rfl : k = key := hlooks
    obtain ⟨haccepted, hfits⟩ := hop
    exact run_bind_error (FileCache.contains_locked s.name _ hintact haccepted.splitKey
      haccepted.ne_empty hfits hlocked) _
  | copy k source? sourceKey move =>
    cases source? with
    | some source => exact hlooks.elim
    | none =>
      obtain ⟨hinside, rfl⟩ : s.toStore.copiesInside s.toStore = false ∧ sourceKey = key := hlooks
      obtain ⟨haccepted, hfits⟩ := hop.2.1
      have hlocal := FileCache.localFile_locked s.name s.inner.toStore hintact haccepted.splitKey
        haccepted.ne_empty hfits hlocked
      have hthrough := s.copySelf_through hinside k sourceKey move
      show (s.toStore.copyFrom k s.toStore sourceKey move >>= _) w = _
      rw [hthrough]
      exact run_bind_error (s.inner.copyThrough_error k move hlocal) _
  | write _ => exact hlooks.elim
  | delete _ => exact hlooks.elim
  | clear => exact hlooks.elim
  | evict => exact hlooks.elim

/-- Every operation keeps a cache coherent, however it ends, and an answer fits what the inner store
held. Where all that is brought can be opened, so can all entries. -/
theorem perform_coherent (hsole : s.Sole) (h : s.Sound opens w) {operation : Operation}
    (hop : s.Admissible w operation) (hopens : opens → operation.Opens w) :
    s.EndsSound opens w operation := by
  by_cases hblocked : s.Blocked w operation
  · exact Ensures.of_error (perform_blocked h.1.intact hop hblocked) h
  have hopen : ∀ key, s.LooksUp operation key → ¬ s.cache.Locked w key := fun key hlooks hlocked =>
    hblocked ⟨key, hlooks, hlocked⟩
  cases operation with
  | write request => exact endsSound_write h hop hopens
  | read key dest => exact endsSound_read h hop.1 (hopen key rfl) hop.2
  | stream key => exact endsSound_stream h hop (hopen key rfl)
  | file key => exact endsSound_file h hop (hopen key rfl)
  | contains key => exact endsSound_contains h hop (hopen key rfl)
  | delete key => exact endsSound_delete h hop.1
  | copy key source? sourceKey move =>
    obtain ⟨hkey, hsourceKey, hsource⟩ := hop
    cases source? with
    | none => exact endsSound_copySelf h hkey.1 hsourceKey fun hinside => hopen _ ⟨hinside, rfl⟩
    | some source => exact endsSound_copyFrom hsole h hkey.1 hsourceKey.1 (hsource source rfl)
  | clear => exact endsSound_clear h
  | evict => exact endsSound_evict h

/-! ## Runs -/

/-- After the step the cache is coherent, and its answer fits what the inner store held before. It
fails if it looks up an entry that cannot be opened. -/
structure Faithful (s : CachedStore) (t : Transition) : Prop where
  coherent : s.Coherent t.after
  answers : ∀ a, t.answer = .ok a → s.Answers t.before t.operation a t.after
  blocked : s.Blocked t.before t.operation →
    t.answer = .error (.io .permissionDenied) ∧ t.after = t.before

theorem step_sound (hsole : s.Sole) (h : s.Sound opens w) (st : Step)
    (hop : s.Admissible { w with now := st.time } st.operation)
    (hopens : opens → st.operation.Opens { w with now := st.time }) :
    s.Sound opens (s.toStore.step w st).after ∧ s.Faithful (s.toStore.step w st) := by
  have hbefore := h.setNow st.time
  have hblocked : s.Blocked (s.toStore.step w st).before (s.toStore.step w st).operation →
      (s.toStore.step w st).answer = .error (.io .permissionDenied) ∧
        (s.toStore.step w st).after = (s.toStore.step w st).before := by
    rw [Store.step_before, Store.step_operation]
    intro hblocked
    have hrun := perform_blocked hbefore.1.intact hop hblocked
    unfold Store.step
    dsimp only
    rw [hrun]
    exact ⟨rfl, rfl⟩
  rcases Store.step_spec (perform_coherent hsole hbefore hop hopens) with
    ⟨a, ha, hsound, hanswer⟩ | ⟨e, he, hsound⟩
  · refine ⟨hsound, hsound.1.toCoherent, fun b hb => ?_, hblocked⟩
    rw [ha] at hb
    obtain rfl := Except.ok.inj hb
    rwa [Store.step_before, Store.step_operation]
  · refine ⟨hsound, hsound.1.toCoherent, fun b hb => ?_, hblocked⟩
    rw [he] at hb
    exact absurd hb nofun

/-- **Coherence.** Every step of a run leaves a coherent cache coherent. -/
theorem trace_coherent (hsole : s.Sole) (h : s.Sound False w) (steps : List Step)
    (hsteps : ∀ t ∈ s.toStore.trace w steps, s.Admissible t.before t.operation) :
    ∀ t ∈ s.toStore.trace w steps, s.Faithful t := by
  induction steps generalizing w with
  | nil => exact Store.forall_mem_trace_nil _ _ _
  | cons st steps ih =>
    obtain ⟨hfirst, hrest⟩ := Store.forall_mem_trace_cons.1 hsteps
    rw [Store.step_before, Store.step_operation] at hfirst
    obtain ⟨hsound, hfaithful⟩ := step_sound hsole h st hfirst False.elim
    exact Store.forall_mem_trace_cons.2 ⟨hfaithful, ih hsound hrest⟩

/-- Where all that a run brings may be written to, no step of it is blocked. -/
theorem trace_unblocked (hsole : s.Sole) (h : s.Sound True w) (steps : List Step)
    (hsteps : ∀ t ∈ s.toStore.trace w steps,
      s.Admissible t.before t.operation ∧ t.operation.Opens t.before) :
    ∀ t ∈ s.toStore.trace w steps, ¬ s.Blocked t.before t.operation := by
  induction steps generalizing w with
  | nil => exact Store.forall_mem_trace_nil _ _ _
  | cons st steps ih =>
    obtain ⟨hfirst, hrest⟩ := Store.forall_mem_trace_cons.1 hsteps
    rw [Store.step_before, Store.step_operation] at hfirst
    have hsound := (step_sound hsole h st hfirst.1 fun _ => hfirst.2).1
    refine Store.forall_mem_trace_cons.2 ⟨?_, ih hsound hrest⟩
    rw [Store.step_before]
    rintro ⟨key, -, hlocked⟩
    exact ((h.setNow st.time).1.unlocked trivial).not_locked key hlocked

end CachedStore

end BlobVault
