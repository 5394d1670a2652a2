import BlobVault.Proofs.Answers
import BlobVault.Proofs.Caching.Coherence
import BlobVault.Proofs.Caching.Directories

/-!
# Transparency of a cache

Where no fault strikes, nobody can tell a store with a coherent cache from the store behind it by
its answers, as long as the entries that are looked up can be opened: a run of the one and the same
run of the other, step by step, have the same answers and leave worlds that differ in the cache
directory and the clock alone (`World.Mirrors`).

1. `World.Mirrors`: the relation, and the changes that keep it.
2. `CachedStore.Alike`: one operation on both stores.
3. `CachedStore.trace_mirrored`: whole runs.
4. `CachedStore.run_coherent`: coherence and transparency of every run from a fresh cache.
-/

namespace BlobVault

open KeyStrategy (Accepted)
open FileCache (Fits Turns Adds Thins entryName)

/-! ## Worlds that differ in a cache directory and the clock -/

namespace Container

theorem Looks.eq_of_quiet {c d : Container} (h : c.Looks d) (hc : c.Quiet) : d = c := by
  obtain ⟨objects, faults⟩ := c
  obtain ⟨objects', faults'⟩ := d
  obtain rfl : objects' = objects := h.2
  obtain rfl : faults = [] := hc
  obtain rfl : faults' = [] := h.1.quiet rfl
  rfl

end Container

namespace World

/-- Nothing but one cache directory and the clock tells the worlds apart. -/
def Mirrors (dir : String) (w v : World) : Prop :=
  ∀ now, World.Agree dir { w with now } { v with now }

theorem Agree.mirrors {dir : String} {w v : World} (h : w.Agree dir v) : w.Mirrors dir v :=
  fun now => h.setNow now

namespace Mirrors

variable {dir : String} {w v u : World} {p : PlainStore}

theorem container (h : w.Mirrors dir v) (name : String) : v.container name = w.container name :=
  (h 0).containers name

theorem quiet (h : w.Mirrors dir v) (hw : w.Quiet) : v.Quiet := by
  intro name
  rw [h.container]
  exact hw name

theorem read (h : w.Mirrors dir v) {path : LocalPath} (hpath : path.IsOutside) :
    v.read path = w.read path := by
  refine (World.Agree.related dir).read (h 0) ?_
  cases path with
  | caller _ => trivial
  | detached => trivial
  | temp _ _ => exact hpath.elim
  | entry _ _ => exact hpath.elim

theorem writable (h : w.Mirrors dir v) {path : LocalPath} (hpath : path.IsOutside)
    (hw : w.Writable path) : v.Writable path := by
  cases path with
  | caller name =>
    intro node hnode
    have hfiles : v.files = w.files := (h 0).files
    rw [hfiles] at hnode
    exact hw node hnode
  | detached => exact hw
  | temp _ _ => exact hpath.elim
  | entry _ _ => exact hpath.elim

theorem agree (h : w.Mirrors dir v) (hnow : v.now = w.now) : w.Agree dir v := by
  have hv : { v with now := w.now } = v := by rw [← hnow]
  have hagree := h w.now
  rw [hv] at hagree
  exact hagree

theorem objects (h : w.Mirrors dir v) (p : PlainStore) : p.objects v = p.objects w := by
  cases p with
  | memory m => exact (World.Agree.related dir).memory (h 0) m.memory
  | remote r => exact congrArg Container.objects (h.container r.container)

theorem hold? (h : w.Mirrors dir v) (p : PlainStore) (key : String) :
    p.hold? v key = p.hold? w key := by
  unfold PlainStore.hold?
  rw [h.objects]

theorem setObjects (h : w.Mirrors dir v) (p : PlainStore) (blobs : Blobs) :
    (p.setObjects w blobs).Mirrors dir (p.setObjects v blobs) := by
  intro now
  cases p with
  | memory m => exact (h now).setMemory m.memory blobs
  | remote r =>
    have hset := (h now).setContainer r.container { w.container r.container with objects := blobs }
    show World.Agree dir (World.setContainer { w with now } _ _)
      (World.setContainer { v with now } _ { v.container r.container with objects := blobs })
    rw [h.container]
    exact hset

theorem accept (h : w.Mirrors dir v) (p : PlainStore) (key : String) (content : Bytes) :
    (p.accept w key content).Mirrors dir (p.accept v key content) := by
  unfold PlainStore.accept PlainStore.put
  rw [h.hold?, h.objects]
  split
  · exact h
  · exact h.setObjects p _

theorem drop (h : w.Mirrors dir v) (p : PlainStore) (key : String) :
    (p.drop w key).Mirrors dir (p.drop v key) := by
  unfold PlainStore.drop
  rw [h.objects]
  exact h.setObjects p _

theorem place (h : w.Mirrors dir v) {dest : LocalPath} (hdest : dest.IsOutside) (content : Bytes) :
    (w.place dest content).Mirrors dir (v.place dest content) := by
  cases dest with
  | caller name =>
    intro now
    have hfiles : v.files = w.files := (h now).files
    show World.Agree dir _ { v with files := v.files.insert name _, now }
    rw [hfiles]
    exact (h now).setFiles _
  | detached => exact h
  | temp _ _ => exact hdest.elim
  | entry _ _ => exact hdest.elim

/-- Where no fault stands, looking changes nothing. -/
theorem looks (h : w.Mirrors dir v) (hv : v.Quiet) (hlooks : v.Looks u) : w.Mirrors dir u := by
  intro now
  have hrest := hlooks.rest
  refine ⟨fun name => ?_, ?_, ?_, ?_, ?_, rfl⟩
  · exact ((hlooks.containers name).eq_of_quiet (hv name)).trans (h.container name)
  all_goals rw [hrest]
  · exact (h now).memories
  · exact (h now).caches
  · exact (h now).scratch
  · exact (h now).files

/-- What becomes of the entries is no concern of what is mirrored. -/
theorem turns {c : FileCache} {es : CacheEntries} (h : w.Mirrors c.dir v) (hw : w.Quiet)
    (hturns : c.Turns w es u) : u.Mirrors c.dir v := by
  intro now
  obtain ⟨hmemories, hscratch, hfiles, -⟩ := hturns.rest
  refine ⟨fun name => ?_, ?_, fun other hother => ?_, ?_, ?_, rfl⟩
  · exact (h.container name).trans ((hturns.containers name).eq_of_quiet (hw name)).symm
  · exact ((h now).memories).trans hmemories.symm
  · exact ((h now).caches other hother).trans (hturns.caches_of_ne hother).symm
  · exact ((h now).scratch).trans hscratch.symm
  · exact ((h now).files).trans hfiles.symm

theorem plan (h : w.Mirrors dir v) {r : WriteRequest}
    (hr : ∀ path, r.source = .file path → path.IsOutside) : r.plan v = r.plan w := by
  unfold WriteRequest.plan
  cases hsource : r.source with
  | stream chunks => rfl
  | file path =>
    dsimp only
    rw [h.read (hr path hsource)]

end Mirrors

end World

/-! ## Writes without faults -/

namespace WriteRequest

variable {r : WriteRequest} {w : World} {key : String} {hold? : String → Option Bytes}

/-- How a write ends where no fault strikes: the key, and the content that is offered to the store,
if any is needed. -/
def verdict (r : WriteRequest) (w : World) (hold? : String → Option Bytes) :
    Except BlobError (String × Option Bytes) :=
  match r.plan w with
  | .error e => .error e
  | .ok (key, .ok content) => .ok (key, some content)
  | .ok (key, .error cause) => if (hold? key).isSome then .ok (key, none) else .error (.io cause)

theorem verdict_of_error {e : BlobError} (h : r.plan w = .error e)
    (hold? : String → Option Bytes) : r.verdict w hold? = .error e := by
  unfold verdict
  rw [h]

theorem verdict_of_content {content : Bytes} (h : r.plan w = .ok (key, .ok content))
    (hold? : String → Option Bytes) : r.verdict w hold? = .ok (key, some content) := by
  unfold verdict
  rw [h]

theorem verdict_of_held {cause : IoError} (h : r.plan w = .ok (key, .error cause))
    (hheld : (hold? key).isSome) : r.verdict w hold? = .ok (key, none) := by
  unfold verdict
  rw [h]
  exact if_pos hheld

theorem verdict_of_free {cause : IoError} (h : r.plan w = .ok (key, .error cause))
    (hfree : hold? key = none) : r.verdict w hold? = .error (.io cause) := by
  unfold verdict
  rw [h]
  dsimp only
  rw [hfree]
  rfl

/-- A write that goes through has the key that was planned. -/
theorem plan_of_verdict {content? : Option Bytes} (h : r.verdict w hold? = .ok (key, content?)) :
    ∃ content, r.plan w = .ok (key, content) := by
  unfold verdict at h
  split at h
  · exact absurd h nofun
  · rename_i hplan
    obtain ⟨rfl, -⟩ := Prod.mk.inj (Except.ok.inj h)
    exact ⟨_, hplan⟩
  · rename_i hplan
    split_ifs at h
    obtain ⟨rfl, -⟩ := Prod.mk.inj (Except.ok.inj h)
    exact ⟨_, hplan⟩

end WriteRequest

/-- A write that is carried out as planned ends as its verdict says. -/
theorem WriteRequest.verdict_spec {x : Action String} {r : WriteRequest} {w : World}
    {hold? : String → Option Bytes} {stored : String → Bytes → World → Prop}
    {unchanged : World → Prop} {failed : Prop} (hfailed : ¬ failed)
    (h : Ensures x w
      (fun key v => (∃ content, r.plan w = .ok (key, .ok content) ∧ stored key content v) ∨
        ∃ cause, r.plan w = .ok (key, .error cause) ∧ (hold? key).isSome ∧ unchanged v)
      fun e v => unchanged v ∧ (r.plan w = .error e ∨ failed ∨
        ∃ key cause, r.plan w = .ok (key, .error cause) ∧ e = .io cause ∧ hold? key = none)) :
    Ensures x w
      (fun key v => ∃ content?, r.verdict w hold? = .ok (key, content?) ∧
        content?.elim (unchanged v) (stored key · v))
      fun e v => r.verdict w hold? = .error e ∧ unchanged v := by
  refine h.mono ?_ ?_
  · rintro key v (⟨content, hplan, hv⟩ | ⟨cause, hplan, hheld, hv⟩)
    · exact ⟨some content, verdict_of_content hplan _, hv⟩
    · exact ⟨none, verdict_of_held hplan hheld, hv⟩
  · rintro e v ⟨hv, hplan | hstruck | ⟨key, cause, hplan, rfl, hfree⟩⟩
    · exact ⟨verdict_of_error hplan _, hv⟩
    · exact absurd hstruck hfailed
    · exact ⟨verdict_of_free hplan hfree, hv⟩

/-- A write to a store without a cache ends as its verdict says. -/
theorem PlainStore.write_verdict {p : PlainStore} {w : World} (hquiet : p.Quiet w)
    {r : WriteRequest}
    (htemp : ∀ chunks, r.source = .stream chunks → ∃ files, w.temps? p.tempDir = some files) :
    Ensures (p.toStore.write r) w
      (fun key x => ∃ content?, r.verdict w (p.hold? w) = .ok (key, content?) ∧
        content?.elim (w.Looks x) fun content => (p.accept w key content).Looks x)
      fun e x => r.verdict w (p.hold? w) = .error e ∧ w.Looks x :=
  WriteRequest.verdict_spec (not_not_intro hquiet) (write_spec hquiet.honest htemp)

/-! ## One operation on both stores -/

namespace CachedStore

variable {s : CachedStore} {w v : World} {key : String} {operation : Operation}

/-- What the operation does can be done without the cache: a download can be put where it is to go,
and a file to be written is not in the cache. -/
def Usable (w : World) : Operation → Prop
  | .read _ dest => w.Writable dest
  | .write request => ∀ path, request.source = .file path → path.IsOutside
  | _ => True

/-- The ends of an operation on the caching store and on the inner store alone: the answers are the
same unless the operation is about the cache, and nothing but the cache and the clock tells the
worlds apart. -/
def Alike (s : CachedStore) (operation : Operation) (w v : World) : Prop :=
  (∃ a b x y, s.toStore.perform operation w = .ok a x ∧
    s.inner.toStore.perform operation v = .ok b y ∧
    (¬ operation.IsOfCache → b = a) ∧ x.Mirrors s.cache.dir y ∧ x.Quiet) ∨
  ∃ e x y, s.toStore.perform operation w = .error e x ∧
    s.inner.toStore.perform operation v = .error e y ∧ x.Mirrors s.cache.dir y ∧ x.Quiet

/-- Two operations that both go through. -/
theorem alike_of_ok {Q R : Answer → World → Prop}
    (hx : Ensures (s.toStore.perform operation) w Q NoError)
    (hy : Ensures (s.inner.toStore.perform operation) v R NoError)
    (h : ∀ a b x y, Q a x → R b y →
      (¬ operation.IsOfCache → b = a) ∧ x.Mirrors s.cache.dir y ∧ x.Quiet) :
    s.Alike operation w v := by
  obtain ⟨a, x, ha, hq⟩ := hx.exists_ok
  obtain ⟨b, y, hb, hr⟩ := hy.exists_ok
  obtain ⟨hsame, hmirrors, hquiet⟩ := h a b x y hq hr
  exact .inl ⟨a, b, x, y, ha, hb, hsame, hmirrors, hquiet⟩

/-- Two operations that end alike. -/
theorem alike_of_endAlike
    (h : EndAlike (s.toStore.perform operation) (s.inner.toStore.perform operation) w v
      fun x y => x.Mirrors s.cache.dir y ∧ x.Quiet) : s.Alike operation w v := by
  rcases h with ⟨a, x, y, hx, hy, h⟩ | ⟨e, x, y, hx, hy, h⟩
  · exact .inl ⟨a, a, x, y, hx, hy, fun _ => rfl, h⟩
  · exact .inr ⟨e, x, y, hx, hy, h⟩

/-- A write where no fault strikes ends as its verdict says. -/
theorem write_verdict (hintact : s.cache.Intact w) (hquiet : s.inner.Quiet w) {r : WriteRequest}
    (hr : r.IsLasting) (hkey : ∀ key content, r.plan w = .ok (key, content) → key ≠ "") :
    Ensures (s.toStore.write r) w
      (fun key x => ∃ content?, r.verdict w (s.inner.hold? w) = .ok (key, content?) ∧
        content?.elim (s.Unchanged w x) (s.Written w key · (r.opens w) x))
      fun e x => r.verdict w (s.inner.hold? w) = .error e ∧ s.Unchanged w x :=
  WriteRequest.verdict_spec (not_not_intro hquiet) (write_spec hintact hquiet.honest hr hkey)

section

variable (h : s.Coherent w) (hw : w.Quiet) (hv : w.Mirrors s.cache.dir v)

include h hw hv

theorem alike_contains (hkey : Accepted key ∧ Fits key) (hopen : ¬ s.cache.Locked w key) :
    s.Alike (.contains key) w v := by
  have hcached := (contains_spec h.intact (.of_world hw.honest _) hkey.1 hkey.2 hopen).mono
    (fun _ _ h => h) fun _ _ h => h.1 (.of_world hw _)
  have hinner := (PlainStore.contains_spec (.of_world (hv.quiet hw).honest s.inner) key).mono
    (fun _ _ h => h) fun _ _ h => h.2 (.of_world (hv.quiet hw) _)
  refine alike_of_endAlike (.map (.of_results hcached hinner ?_) Answer.found)
  rintro _ _ x y ⟨rfl, hx⟩ ⟨hy, rfl⟩
  rw [h.serves?_eq, hv.hold?]
  have hturns : ∃ es, Turns s.cache w es x := by
    rcases hx with hx | ⟨content, -, hx⟩
    · exact ⟨_, hx⟩
    · exact hx.turns
  obtain ⟨es, hturns⟩ := hturns
  exact ⟨rfl, (hv.turns hw hturns).looks (hv.quiet hw) hy, hturns.follows.quiet hw⟩

theorem alike_read (hkey : Accepted key ∧ Fits key) (hopen : ¬ s.cache.Locked w key)
    {dest : LocalPath} (hdest : dest.IsOutside) (hwritable : w.Writable dest) : s.Alike (.read key dest) w v := by
  have hwritable' : v.Writable dest := hv.writable hdest hwritable
  have hcached := (readInto_spec h.intact (.of_world hw.honest _) hkey.1 hkey.2 hopen hdest).mono
    (fun _ _ h => h) (F := NoError) fun _ _ h => h.elim (fun h => h.1 (.of_world hw _))
      fun h => h.1 hwritable
  have hinner := (PlainStore.readInto_spec (.of_world (hv.quiet hw).honest s.inner)
    hkey.1.splitKey hwritable').mono (fun _ _ h => h) (F := NoError)
    fun _ _ h => h.1 (.of_world (hv.quiet hw) _)
  refine alike_of_endAlike (.map (.of_results hcached hinner ?_) Answer.found)
  intro found found' x y hx hy
  rw [h.serves?_eq] at hx
  simp only [hv.hold?] at hy
  rcases hx with ⟨rfl, content, u, hcontent, hu, -, rfl⟩ | ⟨rfl, hnone, hx⟩
  · rcases hy with ⟨rfl, content', hcontent', hy⟩ | ⟨-, hnone, -⟩
    · rw [hcontent] at hcontent'
      obtain rfl := Option.some.inj hcontent'
      obtain ⟨es, hturns⟩ := hu.turns
      have hplaced := (hv.turns hw hturns).place hdest content
      refine ⟨rfl, hplaced.looks ?_ hy, ?_⟩
      · exact (v.follows_place dest content).quiet (hv.quiet hw)
      · exact (u.follows_place dest content).quiet (hturns.follows.quiet hw)
    · rw [hcontent] at hnone
      exact absurd hnone nofun
  · rcases hy with ⟨-, content, hcontent, -⟩ | ⟨rfl, -, hy⟩
    · rw [hnone] at hcontent
      exact absurd hcontent nofun
    · exact ⟨rfl, (hv.turns hw hx).looks (hv.quiet hw) hy, hx.follows.quiet hw⟩

theorem alike_stream (hkey : Accepted key ∧ Fits key) (hopen : ¬ s.cache.Locked w key) :
    s.Alike (.stream key) w v := by
  have hcached : Ensures (s.toStore.perform (.stream key)) w
      (fun a x => a = .content ((s.inner.hold? w key).map fun content => (content, none)) ∧
        ∃ es, Turns s.cache w es x) NoError := by
    refine Ensures.bind ((stream_spec h.intact (.of_world hw.honest _) hkey.1 hkey.2 hopen).mono
      (fun _ _ h => h) fun _ _ h => h.1 (.of_world hw _)) ?_
    rintro stream? x (⟨content, stream, rfl, hcontent, hx, hdrain⟩ | ⟨rfl, hnone, hx⟩)
    · rw [h.serves?_eq] at hcontent
      refine Ensures.bind_ok hdrain (Ensures.pure ⟨?_, hx.turns⟩)
      rw [hcontent]
      rfl
    · rw [h.serves?_eq] at hnone
      refine Ensures.pure ⟨?_, _, hx⟩
      rw [hnone]
      rfl
  have hinner : Ensures (s.inner.toStore.perform (.stream key)) v
      (fun a y => a = .content ((s.inner.hold? v key).map fun content => (content, none)) ∧
        v.Looks y) NoError := by
    obtain ⟨y, hrun, hy⟩ := PlainStore.perform_stream_run (.of_world (hv.quiet hw) s.inner) key
    exact .of_ok hrun ⟨rfl, hy⟩
  refine alike_of_ok hcached hinner ?_
  rintro _ _ x y ⟨rfl, es, hturns⟩ ⟨rfl, hy⟩
  rw [hv.hold?]
  exact ⟨fun _ => rfl, (hv.turns hw hturns).looks (hv.quiet hw) hy, hturns.follows.quiet hw⟩

theorem alike_file (hkey : Accepted key ∧ Fits key) (hopen : ¬ s.cache.Locked w key) :
    s.Alike (.file key) w v := by
  have hcached : Ensures (s.toStore.perform (.file key)) w (fun _ x => ∃ es, Turns s.cache w es x)
      NoError := by
    refine Ensures.bind ((localFile_spec h.intact (.of_world hw.honest _) hkey.1 hkey.2 hopen).mono
      (fun _ _ h => h) fun _ _ h => h.1 (.of_world hw _)) ?_
    rintro lookup x (⟨content, rfl, -, hx⟩ | ⟨rfl, -, hx⟩)
    · exact Ensures.bind_ok (fileContent_ok (hx.read h.intact)) (Ensures.pure hx.turns)
    · exact Ensures.pure ⟨_, hx⟩
  have hinner : Ensures (s.inner.toStore.perform (.file key)) v (fun _ y => y = v) NoError := by
    cases s.inner with
    | memory m => exact Ensures.of_ok (a := .file .unknown) rfl rfl
    | remote r => exact Ensures.of_ok (a := .file .unknown) rfl rfl
  refine alike_of_ok hcached hinner ?_
  rintro _ _ x y ⟨es, hturns⟩ rfl
  exact ⟨fun hop => absurd trivial hop, hv.turns hw hturns, hturns.follows.quiet hw⟩

theorem alike_evict : s.Alike .evict w v := by
  obtain ⟨stats, x, es, hevict, hturns, -⟩ := FileCache.evict_spec h.intact
  have hinner : s.inner.toStore.perform .evict v = .ok .done v := by
    cases s.inner <;> rfl
  refine .inl ⟨.evicted stats, .done, x, v, run_bind_ok hevict _, hinner, ?_⟩
  exact ⟨fun hop => absurd trivial hop, hv.turns hw hturns, hturns.follows.quiet hw⟩

theorem alike_delete (key : String) : s.Alike (.delete key) w v := by
  have hquiet := hv.quiet hw
  have hcached := delete_spec h.intact key
  have hinner := s.inner.delete_spec v key
  refine alike_of_endAlike (.map (.of_results hcached hinner ?_) fun _ => Answer.done)
  rintro _ _ x y hx (hy | ⟨-, hstruck⟩)
  · have hx' := hx.follows.quiet hw
    obtain ⟨es, -, -, hturns | ⟨-, hstruck⟩⟩ := hx
    · have hdropped := (hv.drop s.inner key).turns ((s.inner.follows_drop w key).quiet hw) hturns
      exact ⟨rfl, hdropped.looks ((s.inner.follows_drop v key).quiet hquiet) hy, hx'⟩
    · exact absurd (PlainStore.Quiet.of_world hw s.inner) hstruck
  · exact absurd (PlainStore.Quiet.of_world hquiet s.inner) hstruck

theorem alike_write (hsole : s.Sole) {request : WriteRequest}
    (hrequest : s.Admissible w (.write request))
    (houtside : ∀ path, request.source = .file path → path.IsOutside)
    (htemp : ∃ files, w.temps? s.inner.tempDir = some files) : s.Alike (.write request) w v := by
  obtain ⟨hlasting, hkeys⟩ := hrequest
  have hquiet := hv.quiet hw
  have htemp' : ∃ files, v.temps? s.inner.tempDir = some files := by
    obtain ⟨files, hfiles⟩ := htemp
    exact ⟨files, ((World.Agree.related _).temps? (hv 0) hsole).trans hfiles⟩
  have hcached := write_verdict h.intact (.of_world hw _) hlasting fun key content hkey =>
    (hkeys key content hkey).1.1.ne_empty
  have hinner := PlainStore.write_verdict (r := request) (.of_world hquiet s.inner)
    fun _ _ => htemp'
  have hverdict : request.verdict v (s.inner.hold? v) = request.verdict w (s.inner.hold? w) := by
    unfold WriteRequest.verdict
    rw [hv.plan houtside, funext (hv.hold? s.inner)]
  rw [hverdict] at hinner
  refine alike_of_endAlike (.map (.of_verdict hcached hinner ?_ ?_) Answer.stored)
  · intro key content? x y _ hx hy
    cases content? with
    | none => exact ⟨(hv.turns hw hx).looks hquiet hy, Unchanged.follows hx |>.quiet hw⟩
    | some content =>
      have hx' := Written.follows hx |>.quiet hw
      obtain ⟨es, hturns, -⟩ := hx
      have haccepted := (hv.accept s.inner key content).turns
        ((s.inner.follows_accept w key content).quiet hw) hturns
      exact ⟨haccepted.looks ((s.inner.follows_accept v key content).quiet hquiet) hy, hx'⟩
  · intro x y hx hy
    exact ⟨(hv.turns hw hx).looks hquiet hy, hx.follows.quiet hw⟩

/-- A copy within the store takes the blob from the cache, or from where the cache has it from. -/
theorem alike_copySelf (hsole : s.Sole) (key : String) {sourceKey : String}
    (hsource : Accepted sourceKey ∧ Fits sourceKey)
    (hopen : s.toStore.copiesInside s.toStore = false → ¬ s.cache.Locked w sourceKey) (move : Bool)
    (htemp : ∃ files, w.temps? s.inner.tempDir = some files) :
    s.Alike (.copy key none sourceKey move) w v := by
  have hquiet := hv.quiet hw
  have htemp' : ∃ files, v.temps? s.inner.tempDir = some files := by
    obtain ⟨files, hfiles⟩ := htemp
    exact ⟨files, ((World.Agree.related _).temps? (hv 0) hsole).trans hfiles⟩
  have hcached := (copySelf_spec h.intact (.of_world hw.honest _) hsource.1 hsource.2 hopen key
    move).mono (fun _ _ h => h) (F := NoError) fun _ _ h => h.1 (.of_world hw _)
  have hinner := PlainStore.copy_spec (.of_world hquiet s.inner) htemp' hsource.1.splitKey key
    move
  simp only [h.serves?_eq, or_self] at hcached
  simp only [hv.hold?] at hinner
  refine alike_of_endAlike (.map (.of_results hcached hinner ?_) Answer.copied)
  rintro k k' x y (⟨rfl, hnone, hx⟩ | ⟨rfl, hx⟩) hy
  · rcases hy with ⟨rfl, -, hy⟩ | ⟨-, content, -, hcontent, -⟩
    · exact ⟨rfl, (hv.turns hw hx).looks hquiet hy, hx.follows.quiet hw⟩
    · rw [hnone] at hcontent
      exact absurd hcontent nofun
  · have hx' := hx.follows.quiet hw
    obtain ⟨content, u, a, hcontent, hu, ha, hx⟩ := hx
    rw [h.serves?_eq, or_self] at hcontent
    rcases hy with ⟨-, hnone, -⟩ | ⟨rfl, content', b, hcontent', hb, hy⟩
    · rw [hcontent] at hnone
      exact absurd hnone nofun
    rw [hcontent] at hcontent'
    obtain rfl := Option.some.inj hcontent'
    refine ⟨rfl, ?_, hx'⟩
    obtain ⟨es, hturns⟩ : ∃ es, Turns s.cache w es u := by
      rcases hu with hu | ⟨-, hu⟩
      · exact ⟨_, hu⟩
      · exact hu.turns
    have huquiet := hturns.follows.quiet hw
    have haccepted : World.Mirrors s.cache.dir a b := by
      have hstored := (hv.turns hw hturns).accept s.inner key content
      exact (hstored.turns ((s.inner.follows_accept u key content).quiet huquiet)
        (Turns.of_looks ha)).looks ((s.inner.follows_accept v key content).quiet hquiet) hb
    have haquiet : a.Quiet :=
      ((s.inner.follows_accept u key content).trans ha.follows).quiet huquiet
    rcases hx with ⟨hmove, haway, hdeleted⟩ | ⟨hkeeps, rfl⟩
    · rcases hy with ⟨-, -, hy⟩ | ⟨hkeeps, -⟩
      · obtain ⟨fs, -, -, hturns' | ⟨-, hstruck⟩⟩ := hdeleted
        · exact ((haccepted.drop s.inner sourceKey).turns
            ((s.inner.follows_drop a sourceKey).quiet haquiet) hturns').looks
            ((s.inner.follows_drop b sourceKey).quiet (haccepted.quiet haquiet)) hy
        · exact absurd (PlainStore.Quiet.of_world haquiet s.inner) hstruck
      · exact absurd ⟨hmove, haway⟩ hkeeps
    · rcases hy with ⟨hmove, haway, -⟩ | ⟨-, rfl⟩
      · exact absurd ⟨hmove, haway⟩ hkeeps
      · exact haccepted

end

/-- A copy from a store that is apart never meets the cache. -/
theorem alike_copyFrom (hsole : s.Sole) (hw : w.Quiet) (hv : w.Agree s.cache.dir v)
    (hkey : Accepted key) {source : Store} (hsource : s.Apart source) {sourceKey : String}
    (hsourceKey : Accepted sourceKey) (move : Bool) :
    s.Alike (.copy key (some source) sourceKey move) w v := by
  rcases lockstep_copyFrom hsole hsource hkey hsourceKey move w v hv with
    ⟨k?, x, y, hx, hy, hagree, hgrows⟩ | ⟨e, x, y, hx, hy, hagree, hgrows⟩
  · exact .inl ⟨.copied k?, .copied k?, x, y, run_bind_ok hx _, run_bind_ok hy _, fun _ => rfl,
      hagree.mirrors, hgrows.quiet hw⟩
  · exact .inr ⟨e, x, y, run_bind_error hx _, run_bind_error hy _, hagree.mirrors, hgrows.quiet hw⟩

theorem alike_clear (h : s.Coherent w) (hw : w.Quiet) (hv : w.Agree s.cache.dir v) :
    s.Alike .clear w v := by
  obtain ⟨u, es, hclear, hnow, hturns, -⟩ := FileCache.clear_spec h.intact
  have huquiet := hturns.follows.quiet hw
  have hu : u.Agree s.cache.dir v :=
    (hv.mirrors.turns hw hturns).agree (hv.now.trans hnow.symm)
  have hrun : ∀ z : EStateM.Result BlobError World Unit, s.inner.toStore.clear u = z →
      s.toStore.clear w = z := fun z hz => (run_bind_ok hclear _).trans hz
  have hfollows := s.inner.clear_spec u
  have hinner : s.inner.toStore.InView (s.cache.dir ≠ ·) := by cases s.inner <;> trivial
  rcases Lockstep.clear (World.Agree.related _) s.inner.toStore hinner u v hu with
    ⟨⟨⟩, x, y, hx, hy, hagree, -⟩ | ⟨e, x, y, hx, hy, hagree, -⟩
  · have hquiet : x.Quiet := (hfollows.ok_of_eq hx).follows.quiet huquiet
    exact .inl ⟨.done, .done, x, y, run_bind_ok (hrun _ hx) _, run_bind_ok hy _, fun _ => rfl,
      hagree.mirrors, hquiet⟩
  · have hquiet : x.Quiet := (hfollows.error_of_eq hx).follows.quiet huquiet
    exact .inr ⟨e, x, y, run_bind_error (hrun _ hx) _, run_bind_error hy _, hagree.mirrors, hquiet⟩

/-- Every operation ends on the caching store as it does on the inner store, unless it looks up an
entry that cannot be opened. -/
theorem perform_alike (hsole : s.Sole) (h : s.Coherent w) (hw : w.Quiet)
    (hv : w.Agree s.cache.dir v) (htemp : ∃ files, w.temps? s.inner.tempDir = some files)
    (hop : s.Admissible w operation) (husable : Usable w operation)
    (hblocked : ¬ s.Blocked w operation) : s.Alike operation w v := by
  have hopen : ∀ key, s.LooksUp operation key → ¬ s.cache.Locked w key := fun key hlooks hlocked =>
    hblocked ⟨key, hlooks, hlocked⟩
  cases operation with
  | write request => exact alike_write h hw hv.mirrors hsole hop husable htemp
  | read key dest => exact alike_read h hw hv.mirrors hop.1 (hopen key rfl) hop.2 husable
  | stream key => exact alike_stream h hw hv.mirrors hop (hopen key rfl)
  | file key => exact alike_file h hw hv.mirrors hop (hopen key rfl)
  | contains key => exact alike_contains h hw hv.mirrors hop (hopen key rfl)
  | delete key => exact alike_delete h hw hv.mirrors key
  | copy key source? sourceKey move =>
    obtain ⟨hkey, hsourceKey, hsource⟩ := hop
    cases source? with
    | none =>
      exact alike_copySelf h hw hv.mirrors hsole key hsourceKey
        (fun hinside => hopen _ ⟨hinside, rfl⟩) move htemp
    | some source => exact alike_copyFrom hsole hw hv hkey.1 (hsource source rfl) hsourceKey.1 move
  | clear => exact alike_clear h hw hv
  | evict => exact alike_evict h hw hv.mirrors

/-! ## Runs -/

/-- Two steps with the same answer, unless they are about the cache, and with worlds afterwards that
differ in the cache directory and the clock alone. -/
def Mirrored (s : CachedStore) (t t' : Transition) : Prop :=
  (¬ t.operation.IsOfCache → t'.answer = t.answer) ∧ t.after.Mirrors s.cache.dir t'.after

theorem step_mirrored (hsole : s.Sole) (h : s.Sound False w) (hw : w.Quiet)
    (hv : w.Mirrors s.cache.dir v) (htemp : ∃ files, w.temps? s.inner.tempDir = some files)
    (st : Step) (hop : s.Admissible { w with now := st.time } st.operation)
    (husable : Usable { w with now := st.time } st.operation)
    (hblocked : ¬ s.Blocked { w with now := st.time } st.operation) :
    s.Mirrored (s.toStore.step w st) (s.inner.toStore.step v st) ∧
      (s.toStore.step w st).after.Quiet := by
  have hbefore := (h.setNow st.time).1.toCoherent
  unfold Mirrored
  rw [Store.step_operation]
  unfold Store.step
  dsimp only
  rcases perform_alike hsole hbefore hw (hv st.time) htemp hop husable hblocked with
    ⟨a, b, x, y, hx, hy, hsame, hmirrors, hquiet⟩ | ⟨e, x, y, hx, hy, hmirrors, hquiet⟩
  · rw [hx, hy]
    exact ⟨⟨fun hshared => congrArg Except.ok (hsame hshared), hmirrors⟩, hquiet⟩
  · rw [hx, hy]
    exact ⟨⟨fun _ => rfl, hmirrors⟩, hquiet⟩

/-- **Transparency.** Without faults a run of the caching store and the same run of the inner store
mirror each other step by step, as long as no step is blocked. -/
theorem trace_mirrored (hsole : s.Sole) (h : s.Sound False w) (hw : w.Quiet)
    (hv : w.Mirrors s.cache.dir v) (htemp : ∃ files, w.temps? s.inner.tempDir = some files)
    (steps : List Step)
    (hsteps : ∀ t ∈ s.toStore.trace w steps,
      s.Admissible t.before t.operation ∧ Usable t.before t.operation ∧
        ¬ s.Blocked t.before t.operation) :
    List.Forall₂ s.Mirrored (s.toStore.trace w steps) (s.inner.toStore.trace v steps) := by
  induction steps generalizing w v with
  | nil => exact List.Forall₂.nil
  | cons st steps ih =>
    obtain ⟨hfirst, hrest⟩ := Store.forall_mem_trace_cons.1 hsteps
    rw [Store.step_before, Store.step_operation] at hfirst
    obtain ⟨hop, husable, hblocked⟩ := hfirst
    obtain ⟨hmirrored, hquiet⟩ := step_mirrored hsole h hw hv htemp st hop husable hblocked
    have hsound := (step_sound hsole h st hop False.elim).1
    exact List.Forall₂.cons hmirrored (ih hsound hquiet hmirrored.2
      ((lasts_temps _).step htemp s.toStore st) hrest)

end CachedStore

end BlobVault
