import BlobVault.Proofs.Caching.Coherence
import BlobVault.Proofs.Caching.Directories

/-!
# Reading what was written through a cache

A caching store offers what it is given to the inner store, and then puts it into its cache. The
inner store keeps what it has if it has the key already, the cache does not take a key that is too
long for the name of a file, and it cannot open its copy of a file that may not be written to. So a
read after a write gets what the inner store holds just for keys that fit, under which the inner
store held nothing else before, and for content that comes on a stream or from a writable file.

1. `FileCache.Intact.run`: whatever is done through a store, the directory of the cache stays
   intact.
2. `CachedStore.readsHeld_iff`, `CachedStore.streamsHeld_iff`: reads after a write.
3. `CachedStore.reads_held_iff`: when they get what the inner store holds.
-/

namespace BlobVault

open KeyStrategy (Accepted)
open FileCache (Fits Turns Adds entryName)

/-! ## Between operations -/

/-- Time has passed, and faults have come and gone. -/
structure World.Later (w v : World) : Prop where
  rest : v = { w with containers := v.containers, now := v.now }
  objects : ∀ name, (v.container name).objects = (w.container name).objects

namespace World.Later

variable {w v : World}

theorem caches (h : w.Later v) : v.caches = w.caches := by rw [h.rest]

theorem hold? (h : w.Later v) (p : PlainStore) (key : String) : p.hold? v key = p.hold? w key := by
  have hobjects : p.objects v = p.objects w := by
    cases p with
    | memory m =>
      show v.memories.getD _ _ = w.memories.getD _ _
      rw [h.rest]
    | remote r => exact h.objects r.container
  unfold PlainStore.hold?
  rw [hobjects]

end World.Later

namespace CachedStore

variable {s : CachedStore} {w v x : World} {key : String} {content : Bytes} {dest : LocalPath}

theorem cached?_of_later (h : w.Later v) (key : String) : s.cached? v key = s.cached? w key := by
  unfold cached? FileCache.entries
  rw [h.caches]

theorem locked_of_later (h : w.Later v) (key : String) :
    s.cache.Locked v key ↔ s.cache.Locked w key := by
  unfold FileCache.Locked FileCache.entries
  rw [h.caches]

/-! ## Reads after a write -/

/-- A write of content fails with the inner store, or leaves both stores written. -/
theorem write_planned_spec (hw : s.cache.Intact w) (hhonest : w.Honest) {r : WriteRequest}
    (hr : r.IsLasting) (hkey : Accepted key) (hplan : r.plan w = .ok (key, .ok content)) :
    Ensures (s.toStore.write r) w (fun k v => k = key ∧ s.Written w key content (r.opens w) v)
      fun _ _ => ¬ s.inner.Quiet w := by
  have hne : ∀ k content, r.plan w = .ok (k, content) → k ≠ "" := by
    intro k content hk
    rw [hplan] at hk
    obtain ⟨rfl, -⟩ := Prod.mk.inj (Except.ok.inj hk)
    exact hkey.ne_empty
  refine (write_spec hw (.of_world hhonest _) hr hne).mono ?_ ?_
  · rintro k v (⟨bytes, hbytes, hv⟩ | ⟨cause, hcause, -⟩)
    · rw [hplan] at hbytes
      obtain ⟨rfl, hsame⟩ := Prod.mk.inj (Except.ok.inj hbytes)
      obtain rfl := Except.ok.inj hsame
      exact ⟨rfl, hv⟩
    · rw [hplan] at hcause
      exact absurd (Prod.mk.inj (Except.ok.inj hcause)).2 nofun
  · rintro e v ⟨-, herror | hstruck | ⟨k, cause, hcause, -⟩⟩
    · rw [hplan] at herror
      exact absurd herror nofun
    · exact hstruck
    · rw [hplan] at hcause
      exact absurd (Prod.mk.inj (Except.ok.inj hcause)).2 nofun

/-- Without faults a write of content goes through. -/
theorem write_ok (hw : s.cache.Intact w) (hquiet : w.Quiet) {r : WriteRequest} (hr : r.IsLasting)
    (hkey : Accepted key) (hplan : r.plan w = .ok (key, .ok content)) :
    ∃ v, s.toStore.write r w = .ok key v ∧ s.Written w key content (r.opens w) v := by
  have hwrite := (write_planned_spec hw hquiet.honest hr hkey hplan).mono (fun _ _ h => h)
    (F := NoError) fun _ _ h => h (.of_world hquiet _)
  obtain ⟨k, v, hrun, rfl, hv⟩ := hwrite.exists_ok
  exact ⟨v, hrun, hv⟩

namespace Written

variable {opens : Bool} (h : s.Written w key content opens v)

include h

theorem intact (hw : s.cache.Intact w) : s.cache.Intact v := by
  obtain ⟨es, hturns, ⟨-, hadds⟩ | ⟨-, rfl⟩⟩ := h
  · exact hturns.intact (s.inner.intact_accept hw key content) (hadds.isFile hw.isFile)
  · exact hturns.intact (s.inner.intact_accept hw key content) hw.isFile

theorem files : v.files = w.files := by
  obtain ⟨es, hturns, -⟩ := h
  rw [hturns.rest.2.2.1, PlainStore.accept_rest]

/-- The inner store keeps what it has. -/
theorem hold?_eq : s.inner.hold? v key = some ((s.inner.hold? w key).getD content) := by
  obtain ⟨es, hturns, -⟩ := h
  rw [PlainStore.hold?_of_turns hturns, PlainStore.hold?_accept_self]

/-- The cache takes what was written. -/
theorem cached?_eq (hw : s.cache.Intact w) (hfits : Fits key) : s.cached? v key = some content := by
  obtain ⟨es, hturns, ⟨-, hadds⟩ | ⟨hlong, -⟩⟩ := h
  · obtain ⟨t, ht⟩ := hadds.self
    rw [← hturns.entries (s.inner.intact_accept hw key content).dir] at ht
    exact cached?_eq_some ht
  · exact absurd hfits hlong

/-- What the cache took can be opened, or not, as the request says. -/
theorem locked_iff (hw : s.cache.Intact w) (hfits : Fits key) :
    s.cache.Locked v key ↔ opens = false := by
  obtain ⟨es, hturns, ⟨-, hadds⟩ | ⟨hlong, -⟩⟩ := h
  · obtain ⟨t, ht⟩ := hadds.self
    rw [← hturns.entries (s.inner.intact_accept hw key content).dir] at ht
    constructor
    · rintro ⟨bytes, used, hlocked⟩
      rw [ht] at hlocked
      exact (CacheNode.file.inj (Option.some.inj hlocked)).2.2
    · rintro rfl
      exact ⟨content, t, ht⟩
  · exact absurd hfits hlong

end Written

/-- A read of the key succeeds and delivers exactly the bytes that the inner store holds. -/
def ReadsHeld (s : CachedStore) (w : World) (key : String) (dest : LocalPath) : Prop :=
  ∃ content v, s.inner.hold? w key = some content ∧
    s.toStore.perform (.read key dest) w = .ok (.found true) v ∧ v.read dest = .ok content

/-- A stream of the key, read to its end, delivers exactly the bytes that the inner store holds. -/
def StreamsHeld (s : CachedStore) (w : World) (key : String) : Prop :=
  ∃ content v, s.inner.hold? w key = some content ∧
    s.toStore.perform (.stream key) w = .ok (.content (some (content, none))) v

section

variable (hx : s.cache.Intact x) (hkey : Accepted key)

include hx hkey

/-- Without faults a read gets what is cached. -/
theorem readsHeld_iff (hquiet : x.Quiet) (hfits : Fits key) (hopen : ¬ s.cache.Locked x key)
    (hcached : s.cached? x key = some content) (hdest : dest.IsOutside)
    (hwritable : x.Writable dest) :
    s.ReadsHeld x key dest ↔ s.inner.hold? x key = some content := by
  have hserves : s.serves? x key = some content := by
    unfold serves?
    rw [hcached, Option.some_or]
  have hread := (readInto_spec hx (.of_world hquiet.honest _) hkey hfits hopen hdest).mono
    (fun _ _ h => h) (F := NoError) fun _ _ h => h.elim (fun h => h.1 (.of_world hquiet _))
      fun h => h.1 hwritable
  obtain ⟨found, y, hrun, ⟨rfl, bytes, u, hbytes, ⟨es, hturns, -⟩, -, rfl⟩ | ⟨-, hnone, -⟩⟩ :=
    hread.exists_ok
  · rw [hserves] at hbytes
    obtain rfl := Option.some.inj hbytes
    have hperform : s.toStore.perform (.read key dest) x =
        .ok (.found true) (u.place dest content) :=
      run_bind_ok hrun _
    have hplaced := World.read_place (hturns.writable hdest hwritable) content
    constructor
    · rintro ⟨held, y, hheld, hrun', hy⟩
      obtain ⟨-, rfl⟩ := EStateM.Result.ok.inj (hperform.symm.trans hrun')
      obtain rfl := Except.ok.inj (hplaced.symm.trans hy)
      exact hheld
    · exact fun hheld => ⟨content, _, hheld, hperform, hplaced⟩
  · rw [hserves] at hnone
    exact absurd hnone nofun

/-- So does a stream. -/
theorem streamsHeld_iff (hquiet : x.Quiet) (hfits : Fits key) (hopen : ¬ s.cache.Locked x key)
    (hcached : s.cached? x key = some content) :
    s.StreamsHeld x key ↔ s.inner.hold? x key = some content := by
  have hserves : s.serves? x key = some content := by
    unfold serves?
    rw [hcached, Option.some_or]
  have hstream := (stream_spec hx (.of_world hquiet.honest _) hkey hfits hopen).mono
    (fun _ _ h => h) (F := NoError) fun _ _ h => h.1 (.of_world hquiet _)
  obtain ⟨stream?, y, hrun, ⟨bytes, stream, rfl, hbytes, -, hdrain⟩ | ⟨-, hnone, -⟩⟩ :=
    hstream.exists_ok
  · rw [hserves] at hbytes
    obtain rfl := Option.some.inj hbytes
    have hperform : s.toStore.perform (.stream key) x = .ok (.content (some (content, none))) y :=
      (run_bind_ok hrun _).trans (run_bind_ok hdrain _)
    constructor
    · rintro ⟨held, z, hheld, hrun'⟩
      obtain ⟨hanswer, -⟩ := EStateM.Result.ok.inj (hperform.symm.trans hrun')
      obtain ⟨rfl, -⟩ := Prod.mk.inj (Option.some.inj (Answer.content.inj hanswer))
      exact hheld
    · exact fun hheld => ⟨content, y, hheld, hperform⟩
  · rw [hserves] at hnone
    exact absurd hnone nofun

/-- Neither gets anything under a key that is too long for the name of a file. -/
theorem not_held_of_long (hlong : ¬ Fits key) :
    ¬ s.ReadsHeld x key dest ∧ ¬ s.StreamsHeld x key := by
  have htouch := FileCache.touch_long hx hlong
  refine ⟨?_, ?_⟩
  · rintro ⟨bytes, y, -, hrun, -⟩
    have hread : s.toStore.readInto key dest x = .error (.io .invalidFilename) x := by
      show (if ByteRange.isAnnotated key then _ else _ : Action Bool) x = _
      rw [if_neg hkey.not_isAnnotated]
      exact run_bind_error (run_bind_error htouch _) _
    exact absurd ((run_bind_error hread _).symm.trans hrun) nofun
  · rintro ⟨bytes, y, -, hrun⟩
    have hopen : s.toStore.openStream key x = .error (.io .invalidFilename) x := by
      show (if ByteRange.isAnnotated key then _ else _ : Action (Option BlobStream)) x = _
      rw [if_neg hkey.not_isAnnotated]
      exact run_bind_error (run_bind_error htouch _) _
    exact absurd ((run_bind_error hopen _).symm.trans hrun) nofun

/-- Nor under a key with an entry that cannot be opened. -/
theorem not_held_of_locked (hfits : Fits key) (hlocked : s.cache.Locked x key) :
    ¬ s.ReadsHeld x key dest ∧ ¬ s.StreamsHeld x key := by
  refine ⟨?_, ?_⟩
  · rintro ⟨bytes, y, -, hrun, -⟩
    have hread := FileCache.readInto_locked s.name s.inner.toStore hx hkey.splitKey hkey.ne_empty
      hfits hlocked dest
    exact absurd ((run_bind_error hread _).symm.trans hrun) nofun
  · rintro ⟨bytes, y, -, hrun⟩
    have hopen := FileCache.openStream_locked s.name s.inner.toStore hx hkey.splitKey
      hkey.ne_empty hfits hlocked
    exact absurd ((run_bind_error hopen _).symm.trans hrun) nofun

end

/-- **Reads after a write.** After any run from a fresh cache and a write that went through, a read
and a stream get what the inner store holds if and only if the key fits, the content came on a
stream or from a file that may be written to, and the inner store held nothing else under the key
before the write. -/
theorem reads_held_iff (s : CachedStore) {start w v x : World} (hfresh : s.Fresh start)
    (steps : List Step) (hw : (s.toStore.run start steps).Later w) (hhonest : w.Honest)
    {r : WriteRequest} (hr : r.IsLasting) {key : String} (hkey : Accepted key) {content : Bytes}
    (hplan : r.plan w = .ok (key, .ok content)) (hwrite : s.toStore.write r w = .ok key v)
    (hx : v.Later x) (hquiet : x.Quiet) {dest : LocalPath} (hdest : dest.IsOutside)
    (hwritable : x.Writable dest) :
    (s.ReadsHeld x key dest ↔
      Fits key ∧ r.opens w = true ∧ ∀ held, s.inner.hold? w key = some held → held = content) ∧
    (s.StreamsHeld x key ↔
      Fits key ∧ r.opens w = true ∧
        ∀ held, s.inner.hold? w key = some held → held = content) := by
  have hintact : s.cache.Intact w :=
    (s.cache.lasts_intact.run hfresh.intact s.toStore steps).of_caches hw.caches
  have hwritten := ((write_planned_spec hintact hhonest hr hkey hplan).ok_of_eq hwrite).2
  have hintact' : s.cache.Intact x := (hwritten.intact hintact).of_caches hx.caches
  by_cases hfits : Fits key
  swap
  · obtain ⟨hread, hstream⟩ : ¬ s.ReadsHeld x key dest ∧ ¬ s.StreamsHeld x key :=
      not_held_of_long hintact' hkey hfits
    exact ⟨iff_of_false hread fun h => hfits h.1, iff_of_false hstream fun h => hfits h.1⟩
  have hlocked : s.cache.Locked x key ↔ r.opens w = false :=
    (locked_of_later hx key).trans (hwritten.locked_iff hintact hfits)
  cases hopens : r.opens w with
  | false =>
    obtain ⟨hread, hstream⟩ : ¬ s.ReadsHeld x key dest ∧ ¬ s.StreamsHeld x key :=
      not_held_of_locked hintact' hkey hfits (hlocked.2 hopens)
    exact ⟨iff_of_false hread fun h => absurd h.2.1 nofun,
      iff_of_false hstream fun h => absurd h.2.1 nofun⟩
  | true =>
    have hopen : ¬ s.cache.Locked x key := fun h => absurd (hopens.symm.trans (hlocked.1 h)) nofun
    have hcached : s.cached? x key = some content := by
      rw [cached?_of_later hx, hwritten.cached?_eq hintact hfits]
    have hheld : s.inner.hold? x key = some content ↔
        Fits key ∧ true = true ∧ ∀ held, s.inner.hold? w key = some held → held = content := by
      rw [hx.hold?, hwritten.hold?_eq]
      cases s.inner.hold? w key <;> simp [hfits]
    rw [readsHeld_iff hintact' hkey hquiet hfits hopen hcached hdest hwritable,
      streamsHeld_iff hintact' hkey hquiet hfits hopen hcached]
    exact ⟨hheld, hheld⟩

/-- A memory store with a new cache takes a blob, and gives it back. -/
theorem reads_held_of_new :
    let s : CachedStore := {
      name := "cached"
      cache := ⟨"cache", ⟨10, 2, 0⟩⟩
      inner := .memory { name := "store", memory := "store", tempDir := .scratch "temps" }
      canonical := trivial }
    let w : World := World.setCache {} "cache" {}
    let r : WriteRequest := { source := .stream [.ok [111, 108, 100]], key? := some "k" }
    s.Fresh w ∧ w.Quiet ∧ Accepted "k" ∧ r.plan w = .ok ("k", .ok [111, 108, 100]) ∧
      ∃ v, s.toStore.write r w = .ok "k" v ∧ v.Quiet ∧
        s.ReadsHeld v "k" (.caller "out") ∧ s.StreamsHeld v "k" := by
  intro s w r
  have hfresh : s.Fresh w := ⟨{}, Std.ExtTreeMap.getElem?_empty, rfl⟩
  have hquiet : w.Quiet := World.quiet_of_containers rfl
  have hkey : Accepted "k" := ⟨.supplied, rfl⟩
  have hplan : r.plan w = .ok ("k", .ok [111, 108, 100]) := rfl
  have hlasting : r.IsLasting := nofun
  obtain ⟨v, hwrite, hv⟩ := write_ok hfresh.intact hquiet hlasting hkey hplan
  have hquiet' : v.Quiet := (Written.follows hv).quiet hquiet
  have hwritable : v.Writable (.caller "out") := by
    intro node hnode
    rw [hv.files] at hnode
    exact absurd (Std.ExtTreeMap.getElem?_empty.symm.trans hnode) nofun
  have hnew : Fits "k" ∧ r.opens w = true ∧
      ∀ held, s.inner.hold? w "k" = some held → held = [111, 108, 100] := by
    refine ⟨by decide, rfl, fun held hheld => ?_⟩
    exact absurd (Std.ExtTreeMap.getElem?_empty.symm.trans hheld) nofun
  obtain ⟨hread, hstream⟩ := reads_held_iff s hfresh [] ⟨rfl, fun _ => rfl⟩ hquiet.honest hlasting
    hkey hplan hwrite ⟨rfl, fun _ => rfl⟩ hquiet'
    (show (LocalPath.caller "out").IsOutside from trivial) hwritable
  exact ⟨hfresh, hquiet, hkey, hplan, v, hwrite, hquiet', hread.2 hnew, hstream.2 hnew⟩

/-- Other bytes are written under a key that a memory store with a cache has. The store keeps the
old ones, and the cache serves the new ones, which the store has never held. -/
theorem not_held_after_other_bytes :
    let s : CachedStore := {
      name := "cached"
      cache := ⟨"cache", ⟨10, 2, 0⟩⟩
      inner := .memory { name := "store", memory := "store", tempDir := .scratch "temps" }
      canonical := trivial }
    let u : World := World.setCache {} "cache" {}
    let r : WriteRequest := { source := .stream [.ok [111, 108, 100]], key? := some "k" }
    let q : WriteRequest := { source := .stream [.ok [110, 101, 119]], key? := some "k" }
    s.Fresh u ∧ Accepted "k" ∧ ∃ w v, s.toStore.write r u = .ok "k" w ∧
      s.toStore.write q w = .ok "k" v ∧ v.Quiet ∧ v.Writable (.caller "out") ∧
      s.inner.hold? v "k" = some [111, 108, 100] ∧
      ¬ s.ReadsHeld v "k" (.caller "out") ∧ ¬ s.StreamsHeld v "k" := by
  intro s u r q
  have hfresh : s.Fresh u := ⟨{}, Std.ExtTreeMap.getElem?_empty, rfl⟩
  have hquiet : u.Quiet := World.quiet_of_containers rfl
  have hkey : Accepted "k" := ⟨.supplied, rfl⟩
  have hfits : Fits "k" := by decide
  have hplan : r.plan u = .ok ("k", .ok [111, 108, 100]) := rfl
  obtain ⟨w, hwrite, hw⟩ := write_ok hfresh.intact hquiet (r := r) nofun hkey hplan
  have hplan' : q.plan w = .ok ("k", .ok [110, 101, 119]) := rfl
  have hintact : s.cache.Intact w := hw.intact hfresh.intact
  have hquietw : w.Quiet := (Written.follows hw).quiet hquiet
  obtain ⟨v, hwrite', hv⟩ := write_ok hintact hquietw (r := q) nofun hkey hplan'
  have hquietv : v.Quiet := (Written.follows hv).quiet hquietw
  have hwritable : v.Writable (.caller "out") := by
    intro node hnode
    rw [hv.files, hw.files] at hnode
    exact absurd (Std.ExtTreeMap.getElem?_empty.symm.trans hnode) nofun
  have hfree : s.inner.hold? u "k" = none := Std.ExtTreeMap.getElem?_empty
  have hheld : s.inner.hold? v "k" = some [111, 108, 100] := by
    rw [hv.hold?_eq, hw.hold?_eq, hfree]
    rfl
  have hcached : s.cached? v "k" = some [110, 101, 119] := hv.cached?_eq hintact hfits
  have hopen : ¬ s.cache.Locked v "k" := fun h => absurd ((hv.locked_iff hintact hfits).1 h) nofun
  have hother : s.inner.hold? v "k" ≠ some [110, 101, 119] := by
    rw [hheld]
    decide
  refine ⟨hfresh, hkey, w, v, hwrite, hwrite', hquietv, hwritable, hheld, ?_, ?_⟩
  · rw [readsHeld_iff (hv.intact hintact) hkey hquietv hfits hopen hcached
      (show (LocalPath.caller "out").IsOutside from trivial) hwritable]
    exact hother
  · rw [streamsHeld_iff (hv.intact hintact) hkey hquietv hfits hopen hcached]
    exact hother

end CachedStore

end BlobVault
