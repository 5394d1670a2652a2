import BlobVault.Proofs.Caching.Copy
import BlobVault.Proofs.LockstepStore

/-!
# Copying and moving from other stores

A store that does not share the objects of a cached store, nor its cache directory, can be the
source of a copy into it. Such a copy never looks into the cache directory, so it runs the same way
whatever is in there, and it takes nothing away from what the inner store holds.

1. `World.Agree`: worlds that differ in one cache directory.
2. `CachedStore.Apart`, `CachedStore.Grows`: the source, and what a copy from it leaves.
3. `CachedStore.lockstep_copyFrom`: the copy.
-/

namespace BlobVault

open KeyStrategy (Accepted)
open FileCache (entryName)

/-! ## Worlds that differ in one cache directory -/

/-- Nothing but one cache directory tells the worlds apart. -/
structure World.Agree (dir : String) (w v : World) : Prop where
  containers : ∀ name, v.container name = w.container name
  memories : v.memories = w.memories
  caches : ∀ other, dir ≠ other → v.caches[other]? = w.caches[other]?
  scratch : v.scratch = w.scratch
  files : v.files = w.files
  now : v.now = w.now

namespace World.Agree

variable {dir : String} {w v : World}

theorem refl (dir : String) (w : World) : w.Agree dir w :=
  ⟨fun _ => rfl, rfl, fun _ _ => rfl, rfl, rfl, rfl⟩

/-- Worlds that agree still do so once the clocks of both are set. -/
theorem setNow (h : w.Agree dir v) (now : Instant) :
    World.Agree dir { w with now } { v with now } :=
  ⟨h.containers, h.memories, h.caches, h.scratch, h.files, rfl⟩

theorem setFiles (h : w.Agree dir v) (files : Std.ExtTreeMap String Node) :
    World.Agree dir { w with files } { v with files } :=
  ⟨h.containers, h.memories, h.caches, h.scratch, rfl, h.now⟩

theorem setContainer (h : w.Agree dir v) (name : String) (c : Container) :
    (w.setContainer name c).Agree dir (v.setContainer name c) := by
  refine ⟨fun other => ?_, h.memories, h.caches, h.scratch, h.files, h.now⟩
  by_cases hname : name = other
  · rw [hname, container_setContainer_self, container_setContainer_self]
  · rw [container_setContainer_of_ne _ hname, container_setContainer_of_ne _ hname]
    exact h.containers other

theorem setMemory (h : w.Agree dir v) (name : String) (blobs : Blobs) :
    (w.setMemory name blobs).Agree dir (v.setMemory name blobs) := by
  refine ⟨h.containers, ?_, h.caches, h.scratch, h.files, h.now⟩
  unfold World.setMemory
  rw [h.memories]

theorem setCache (h : w.Agree dir v) (other : String) (d : CacheDir) :
    (w.setCache other d).Agree dir (v.setCache other d) := by
  refine ⟨h.containers, h.memories, fun name hname => ?_, h.scratch, h.files, h.now⟩
  by_cases heq : other = name
  · rw [heq, caches_setCache_self, caches_setCache_self]
  · rw [caches_setCache_of_ne _ heq, caches_setCache_of_ne _ heq]
    exact h.caches name hname

/-- All other cache directories are in view. -/
theorem related (dir : String) : Related (dir ≠ ·) (World.Agree dir) where
  container h := h.containers
  memories h := h.memories
  caches h := h.caches
  scratch h := h.scratch
  files h := h.files
  now h := h.now
  setContainer h name c _ := h.setContainer name c
  setMemory h := h.setMemory
  setCache h other _ e _ _ _ := h.setCache other e
  setScratch h _ _ := ⟨h.containers, h.memories, h.caches, rfl, h.files, h.now⟩
  setFiles h := h.setFiles
  setNow h := h.setNow

end World.Agree

/-! ## Copying from another store -/

/-- Two stores keep their blobs in different places, as far as accepted keys go. -/
def PlainStore.Apart : PlainStore → PlainStore → Prop
  | .memory m, .memory n => m.memory ≠ n.memory
  | .remote r, .remote o => r.container = o.container →
      ∀ a b, Accepted a → Accepted b → r.pathFor a ≠ o.pathFor b
  | _, _ => True

/-- Dropping a key of one store is no concern of a store that is apart. -/
theorem PlainStore.hold?_drop_of_apart {p q : PlainStore} (h : p.Apart q) {key other : String}
    (hkey : Accepted key) (hother : Accepted other) (w : World) :
    q.hold? (p.drop w key) other = q.hold? w other := by
  cases p with
  | memory m =>
    cases q with
    | memory n =>
      show ((w.setMemory _ _).memory _)[_]? = _
      rw [World.memory_setMemory_of_ne _ h]
      rfl
    | remote o => rfl
  | remote r =>
    cases q with
    | memory n => rfl
    | remote o =>
      show ((w.setContainer _ _).container _).objects[_]? = _
      by_cases hname : r.container = o.container
      · rw [← hname, World.container_setContainer_self]
        show ((w.container r.container).objects.erase _)[_]? =
          ((w.container o.container).objects)[_]?
        rw [hname, getElem?_erase_of_ne]
        exact fun htext => h hname key other hkey hother (congrArg ObjectPath.mk htext)
      · rw [World.container_setContainer_of_ne _ hname]
        rfl

namespace CachedStore

variable {s : CachedStore} {w v : World}

/-- The store shares neither the objects of the inner store nor the cache directory. -/
def Apart (s : CachedStore) : Store → Prop
  | .memory m => (PlainStore.memory m).Apart s.inner
  | .remote r => (PlainStore.remote r).Apart s.inner
  | .caching _ cache inner => s.cache.dir ≠ cache.dir ∧ s.Apart inner

theorem Apart.of_wraps {source : Store} {p : PlainStore} (h : s.Apart source)
    (hp : source.Wraps p) : p.Apart s.inner := by
  induction source with
  | memory m =>
    rw [show p = .memory m from hp]
    exact h
  | remote r =>
    rw [show p = .remote r from hp]
    exact h
  | caching name cache inner ih => exact ih h.2 hp

theorem Apart.inView {source : Store} (h : s.Apart source) :
    source.InView (s.cache.dir ≠ ·) := by
  induction source with
  | memory m => trivial
  | remote r => trivial
  | caching name cache inner ih => exact ⟨h.1, ih h.2⟩

/-- The inner store makes its temporary files outside the cache directory. -/
def Sole (s : CachedStore) : Prop := s.inner.tempDir.InView (s.cache.dir ≠ ·)

/-- Unless faults lie, the cache directory is as before, and what the inner store held under
accepted keys it still holds. -/
structure Grows (s : CachedStore) (w v : World) : Prop where
  honest : w.Honest → v.Honest
  quiet : w.Quiet → v.Quiet
  cache : w.Honest → v.caches[s.cache.dir]? = w.caches[s.cache.dir]?
  held : w.Honest → ∀ key content, Accepted key → s.inner.hold? w key = some content →
    s.inner.hold? v key = some content

theorem Grows.of_objects (hfollows : w.Follows v)
    (hcache : v.caches[s.cache.dir]? = w.caches[s.cache.dir]?)
    (hheld : ∀ key content, Accepted key → s.inner.hold? w key = some content →
      s.inner.hold? v key = some content) : s.Grows w v :=
  ⟨hfollows.honest, hfollows.quiet, fun _ => hcache, fun _ => hheld⟩

/-- Nothing is said where faults lie. -/
theorem Grows.of_dishonest (hw : ¬ w.Honest) : s.Grows w v :=
  ⟨fun h => absurd h hw, fun h => absurd h.honest hw, fun h => absurd h hw, fun h => absurd h hw⟩

theorem admits_grows (s : CachedStore) : Admits (s.cache.dir ≠ ·) s.Grows := by
  refine ⟨fun {w v} h => ?_, fun {u v w} h h' => ?_⟩
  · refine Grows.of_objects (fun name => (h.containers name).1) (h.caches _ fun hne => hne rfl) ?_
    intro key content _ hcontent
    have hobjects : s.inner.objects v = s.inner.objects w := by
      cases s.inner with
      | memory m =>
        show v.memories.getD _ _ = w.memories.getD _ _
        rw [h.memories]
      | remote r => exact (h.containers r.container).2
    unfold PlainStore.hold? at hcontent ⊢
    rwa [hobjects]
  · refine ⟨fun hu => h'.honest (h.honest hu), fun hu => h'.quiet (h.quiet hu),
      fun hu => (h'.cache (h.honest hu)).trans (h.cache hu), fun hu key content hkey hcontent => ?_⟩
    exact h'.held (h.honest hu) key content hkey (h.held hu key content hkey hcontent)

/-- What becomes of a container matters only as far as the inner store uses it. -/
theorem grows_setContainer {name : String} {c : Container}
    (hfollows : (w.container name).Follows c)
    (hheld : ∀ own, s.inner = .remote own → name = own.container → ∀ key content, Accepted key →
      (w.container name).find? (own.pathFor key) = some content →
      c.find? (own.pathFor key) = some content) : s.Grows w (w.setContainer name c) := by
  refine Grows.of_objects (fun other => ?_) rfl fun key content hkey hcontent => ?_
  · by_cases hname : name = other
    · rw [← hname, World.container_setContainer_self]
      exact hfollows
    · rw [World.container_setContainer_of_ne _ hname]
      exact .refl _
  · cases hinner : s.inner with
    | memory m =>
      rw [hinner] at hcontent
      exact hcontent
    | remote own =>
      rw [hinner] at hcontent
      by_cases hname : name = own.container
      · have hkept := hheld own hinner hname key content hkey
        rw [hname] at hkept ⊢
        show ((w.setContainer _ c).container _).objects[_]? = _
        rw [World.container_setContainer_self]
        exact hkept hcontent
      · show ((w.setContainer _ c).container _).objects[_]? = _
        rw [World.container_setContainer_of_ne _ hname]
        exact hcontent

/-- Deleting from a store that is apart. -/
theorem lockstep_delete {source : Store} (hsource : s.Apart source) {key : String}
    (hkey : Accepted key) :
    Lockstep (World.Agree s.cache.dir) s.Grows (source.delete key) := by
  refine Lockstep.delete (World.Agree.related _) s.admits_grows source hsource.inView key
    fun p hp w => ?_
  have hgrows : ∀ v, (p.drop w key).Looks v → s.Grows w v := by
    intro v hv
    have hshares := (PlainStore.shares_setObjects p w _).trans (.of_looks hv)
    refine Grows.of_objects hshares.follows ?_ fun other content hother hcontent => ?_
    · rw [hshares.rest]
    · rw [PlainStore.hold?_of_looks hv,
        PlainStore.hold?_drop_of_apart (hsource.of_wraps hp) hkey hother]
      exact hcontent
  refine (p.delete_spec w key).mono ?_ fun _ _ h => h.elim
  rintro _ v (hv | ⟨hv, -⟩)
  · exact hgrows v hv
  · exact s.admits_grows.spares (hv.spares _)

/-- Storing a file in the inner store. -/
theorem lockstep_storeFile (s : CachedStore) {key : String} {file : LocalPath}
    (hkey : Accepted key) (hfile : file.InView (s.cache.dir ≠ ·)) (length : Nat) :
    Lockstep (World.Agree s.cache.dir) s.Grows (s.inner.storeFile key file length) := by
  refine (Lockstep.storeFile (World.Agree.related _) s.inner key hfile length).strengthen
    fun w => ?_
  by_cases hw : w.Honest
  · have hlooks : ∀ v, w.Looks v → s.Grows w v := fun v h =>
      s.admits_grows.spares (h.spares _)
    have hhonest := PlainStore.Honest.of_world hw s.inner
    refine (s.inner.storeFile_spec hhonest key file length).mono ?_ ?_
    · rintro _ v (⟨-, hv⟩ | ⟨hfree, content, -, hv⟩)
      · exact hlooks v hv
      · have hput : w.Shares (s.inner.put w key content) := PlainStore.shares_setObjects _ _ _
        have hv' := (World.Shares.of_looks hv)
        refine Grows.of_objects (hput.trans hv').follows ?_ ?_
        · rw [(hput.trans hv').rest]
        · intro other held hother hheld
          rw [PlainStore.hold?_of_looks hv,
            PlainStore.hold?_put_of_ne s.canonical.closed hkey hother ?_]
          · exact hheld
          · rintro rfl
            rw [hfree] at hheld
            exact absurd hheld nofun
    · exact fun _ v h => hlooks v h.1
  · refine (Ensures.any _ _).mono (fun _ v _ => ?_) fun _ v _ => ?_
    · exact Grows.of_dishonest hw
    · exact Grows.of_dishonest hw

/-- A copy or a move from a store that is apart runs the same way whatever the cache has, and takes
nothing away from what the inner store holds. -/
theorem lockstep_copyFrom (hsole : s.Sole) {source : Store} (hsource : s.Apart source)
    {key sourceKey : String} (hkey : Accepted key) (hsourceKey : Accepted sourceKey) (move : Bool) :
    Lockstep (World.Agree s.cache.dir) s.Grows
      (s.inner.toStore.copyFrom key source sourceKey move) := by
  refine Lockstep.copyFrom (World.Agree.related _) s.admits_grows s.admits_grows.leads s.inner
    hsole hsource.inView (lockstep_delete hsource hsourceKey) key move
    (fun file hfile => lockstep_storeFile s hkey hfile) fun o r _ => ?_
  -- the container only fills free paths
  refine Lockstep.call (World.Agree.related _) fun w => ?_
  have hcopied : ∀ c, (w.container r.container).Follows c →
      ((w.container r.container).find? (r.pathFor key) = none ∧
        ∃ content, (w.container r.container).find? (o.pathFor sourceKey) = some content ∧
          c.objects = (w.container r.container).objects.insert (r.pathFor key).text content) →
      s.Grows w (w.setContainer r.container c) := by
    rintro c hfollows ⟨hfree, content, -, hobjects⟩
    refine grows_setContainer hfollows fun own _ _ other held _ hheld => ?_
    unfold Container.find? at hfree hheld ⊢
    rw [hobjects, getElem?_insert_of_ne, hheld]
    intro htext
    rw [htext, hheld] at hfree
    exact absurd hfree nofun
  refine (Container.copyToFree_spec _ _ _).mono ?_ ?_
  · exact fun _ c h => ⟨h.1, hcopied c h.1 h.2⟩
  · rintro _ c ⟨hlooks | ⟨hfollows, -, hdone⟩, -⟩
    · exact ⟨hlooks.1, s.admits_grows.spares (World.Looks.spares (.of_container hlooks) _)⟩
    · exact ⟨hfollows, hcopied c hfollows hdone⟩

end CachedStore

end BlobVault
