import BlobVault.Proofs.Copying.Reading
import BlobVault.Proofs.Gc.Pass

/-!
# What a store can reach

An operation through a store changes bytes only where the store can have blobs: a memory store
anywhere in its memory, a remote store under the paths of plain keys. That holds of whole
collections too, and of clearing, as listings name plain keys only. Requests may fail as they like.
Of the cache directories it changes only those of the caches in front of the store.

1. `World.Confined`: the relation between the worlds before and after such a change.
2. `PlainStore.storeFile_confined`, `PlainStore.delete_confined`, `PlainStore.clear_confined`: what
   stores without a cache change.
3. `Store.perform_confined`, `Store.run_confined`, `PlainStore.sweep_confined`: operations, runs of
   them, and collections.
-/

namespace BlobVault

open Std (ExtTreeMap)

/-! ## Plain keys in listings -/

/-- A listing names plain keys only. -/
theorem RemoteStore.plainChars_of_mem_list {r : RemoteStore} {w : World} {blob : ListedBlob}
    (h : .ok blob ∈ (r.list w).1) : PlainChars blob.key.toList := by
  have hmem : .ok blob ∈ (((w.container r.container).list r.space.top?).1.1.filterMap
      fun object => (r.space.localKey? object.1).map fun key => ⟨key, object.2⟩).map
        (Except.ok (ε := BlobError)) := by
    rcases List.mem_append.1 h with h | h
    · exact h
    · obtain ⟨e, -, he⟩ := List.mem_map.1 h
      exact absurd he nofun
  obtain ⟨_, hblob, heq⟩ := List.mem_map.1 hmem
  obtain rfl := Except.ok.inj heq
  obtain ⟨object, -, hobject⟩ := List.mem_filterMap.1 hblob
  obtain ⟨key, hkey, rfl⟩ := Option.map_eq_some_iff.1 hobject
  exact (Namespace.localKey?_eq_some_iff.1 hkey).1

/-! ## Confined changes -/

/-- Bytes were changed at some places only, and cache directories only in view. -/
structure World.Confined (view : String → Prop) (reach : Place → Prop) (w v : World) : Prop where
  bytes : ∀ place, ¬ reach place → v.bytesAt? place = w.bytesAt? place
  caches : ∀ dir, ¬ view dir → v.caches[dir]? = w.caches[dir]?

namespace World.Confined

variable {view : String → Prop} {reach : Place → Prop} {w v u : World}

theorem of_spares (h : w.Spares view v) : w.Confined view reach v where
  bytes place _ := keeps_of_objects (fun name => (h.containers name).2) h.memories place
  caches := h.caches

theorem of_looks (h : w.Looks v) : w.Confined view reach v := of_spares (h.spares view)

theorem trans (h : w.Confined view reach v) (h' : v.Confined view reach u) :
    w.Confined view reach u where
  bytes place hplace := (h'.bytes place hplace).trans (h.bytes place hplace)
  caches dir hdir := (h'.caches dir hdir).trans (h.caches dir hdir)

theorem admits (view : String → Prop) (reach : Place → Prop) :
    Admits view (World.Confined view reach) := ⟨of_spares, trans⟩

end World.Confined

open World (Confined)

/-- Worlds that are equal have more than any view in common. -/
theorem related_eq_in (view : String → Prop) : Related view fun w v => v = w ∧ True where
  container h _ := by rw [h.1]
  memories h := by rw [h.1]
  caches h _ _ := by rw [h.1]
  scratch h := by rw [h.1]
  files h := by rw [h.1]
  now h := by rw [h.1]
  setContainer h _ _ _ := ⟨by rw [h.1], trivial⟩
  setMemory h _ _ := ⟨by rw [h.1], trivial⟩
  setCache h _ _ _ _ _ _ := ⟨by rw [h.1], trivial⟩
  setScratch h _ _ := ⟨by rw [h.1], trivial⟩
  setFiles h _ := ⟨by rw [h.1], trivial⟩
  setNow h _ := ⟨by rw [h.1], trivial⟩

/-! ## Stores without a cache -/

namespace PlainStore

/-- Where a store can have blobs: a memory store anywhere in its memory, a remote store under the
paths of plain keys. -/
def Reaches : PlainStore → Place → Prop
  | .memory m, place => ∃ key, place = .blob m.memory key
  | .remote r, place => ∃ key : String, PlainChars key.toList ∧ place = (remote r).place key

variable {p : PlainStore} {view : String → Prop} {reach : Place → Prop} {w v : World}
  {key : String}

theorem reaches_place (p : PlainStore) (h : PlainChars key.toList) : p.Reaches (p.place key) := by
  cases p with
  | memory m => exact ⟨key, rfl⟩
  | remote r => exact ⟨key, h, rfl⟩

/-- Other objects under one address are a change at its place. -/
theorem confined_setObjects {blobs : Blobs} (hreach : reach (p.place key))
    (hblobs : ∀ address, address ≠ p.address key → blobs[address]? = (p.objects w)[address]?) :
    w.Confined view reach (p.setObjects w blobs) := by
  constructor
  · intro place hplace
    apply bytesAt?_setObjects
    rintro address rfl
    apply hblobs
    rintro rfl
    exact hplace hreach
  · intro dir _
    rw [setObjects_rest]

theorem confined_put (hreach : reach (p.place key)) (w : World) (content : Bytes) :
    w.Confined view reach (p.put w key content) :=
  confined_setObjects hreach fun _ hne => getElem?_insert_of_ne (Ne.symm hne)

theorem confined_drop (hreach : reach (p.place key)) (w : World) :
    w.Confined view reach (p.drop w key) :=
  confined_setObjects hreach fun _ hne => getElem?_erase_of_ne (Ne.symm hne)

/-- What a request put under the path of a key is a change at its place. -/
theorem confined_of_put (hreach : reach (p.place key)) {content : Bytes}
    (h : (p.put w key content).Looks v) : w.Confined view reach v :=
  (confined_put hreach w content).trans (.of_looks h)

end PlainStore

namespace RemoteStore

variable {r : RemoteStore} {view : String → Prop} {reach : Place → Prop} {w : World}
  {key : String}

theorem confined_erase (hreach : reach ((PlainStore.remote r).place key)) (w : World) :
    w.Confined view reach (r.erase key w) := by
  rcases r.erase_spec key w with h | ⟨h, -⟩
  · exact (PlainStore.confined_drop hreach w).trans (.of_looks h)
  · exact .of_looks h

end RemoteStore

namespace PlainStore

variable {p : PlainStore} {view : String → Prop} {reach : Place → Prop} {key : String}

/-- Storing a file changes bytes at the place of the key only. -/
theorem storeFile_confined (hreach : reach (p.place key)) (file : LocalPath) (length : Nat)
    (w : World) :
    Ensures (p.storeFile key file length) w (fun _ v => w.Confined view reach v)
      fun _ v => w.Confined view reach v := by
  refine (p.storeFile_puts key file length w).mono ?_ ?_
  · rintro _ v (hlooks | ⟨content, hput, -⟩)
    · exact .of_looks hlooks
    · exact confined_of_put hreach hput
  · rintro _ v ⟨hlooks | ⟨content, hput, -⟩, -⟩
    · exact .of_looks hlooks
    · exact confined_of_put hreach hput

/-- Deleting a blob changes bytes at the place of its key only. -/
theorem delete_confined (hreach : reach (p.place key)) (w : World) :
    Ensures (p.toStore.delete key) w (fun _ v => w.Confined view reach v)
      fun _ v => w.Confined view reach v := by
  cases p with
  | remote r => exact Ensures.modify (r.confined_erase hreach w)
  | memory m => exact Ensures.modify (confined_drop (p := memory m) hreach w)

/-- Clearing a store changes bytes only where it can have blobs. -/
theorem clear_confined (hreach : ∀ place, p.Reaches place → reach place) (w : World) :
    Ensures p.toStore.clear w (fun _ v => w.Confined view reach v)
      fun _ v => w.Confined view reach v := by
  cases p with
  | memory m =>
    refine Ensures.modify ⟨fun place hplace => ?_, fun _ _ => rfl⟩
    apply (memory m).bytesAt?_setObjects_of_ne
    rintro address rfl
    exact hplace (hreach _ ⟨address, rfl⟩)
  | remote r =>
    refine clear_admits r (Confined.admits view reach) w fun blob hblob u => ?_
    have hplain := r.plainChars_of_mem_list hblob
    exact r.confined_erase (hreach _ ((remote r).reaches_place hplain)) u

end PlainStore

/-! ## Operations -/

theorem Store.base_of_wraps {store : Store} {p : PlainStore} (h : store.Wraps p) :
    store.base = p := by
  induction store with
  | memory m => exact h.symm
  | remote r => exact h.symm
  | caching name cache inner ih => exact ih h

/-- All keys that an operation may store under or delete are of a kind. A copy is one from the store
itself, and clearing may delete every plain key. -/
def Operation.Names (keys : String → Prop) : Operation → Prop
  | .write request => request.Settles keys
  | .delete key => keys key
  | .copy key source? sourceKey _ => source? = none ∧ keys key ∧ keys sourceKey
  | .clear => ∀ key : String, PlainChars key.toList → keys key
  | .read _ _ | .stream _ | .file _ | .contains _ | .evict => True

/-- The local files of an operation are not inside a cache directory out of view. -/
def Operation.InView (view : String → Prop) : Operation → Prop
  | .write request => ∀ path, request.source = .file path → path.InView view
  | .read _ dest => dest.InView view
  | _ => True

theorem Operation.inView_true (operation : Operation) : operation.InView fun _ => True := by
  cases operation with
  | write request => exact fun path _ => path.inView_true
  | read key dest => exact dest.inView_true
  | _ => trivial

/-- An operation changes bytes only where the store at the bottom can have the blobs that it names,
and cache directories only in view. -/
theorem Store.perform_confined {view : String → Prop} {reach : Place → Prop} {keys : String → Prop}
    {store : Store} (hview : store.InView view) (htemp : store.base.tempDir.InView view)
    {operation : Operation} (hnames : operation.Names keys) (hfiles : operation.InView view)
    (hreach : ∀ key, keys key → reach (store.base.place key))
    (hclear : operation = .clear → ∀ place, store.base.Reaches place → reach place) (w : World) :
    Ensures (store.perform operation) w (fun _ v => w.Confined view reach v)
      fun _ v => w.Confined view reach v := by
  have hA := related_eq_in view
  have hR := Confined.admits view reach
  have htemps : ∀ p : PlainStore, store.Wraps p → p.tempDir.InView view := by
    intro p hp
    rwa [← Store.base_of_wraps hp]
  have hplace : ∀ (p : PlainStore) (key : String), store.Wraps p → keys key →
      reach (p.place key) := by
    intro p key hp hkey
    rw [← Store.base_of_wraps hp]
    exact hreach key hkey
  have hstored : ∀ (p : PlainStore) (key : String), store.Wraps p → keys key →
      ∀ file, file.InView view → ∀ length, Lockstep (fun w v => v = w ∧ True)
        (Confined view reach) (p.storeFile key file length) :=
    fun p key hp hkey file hfile length =>
      (Lockstep.storeFile hA p key hfile length).strengthen
        fun w => p.storeFile_confined (hplace p key hp hkey) file length w
  have hdeleted : ∀ key : String, keys key →
      Lockstep (fun w v => v = w ∧ True) (Confined view reach) (store.delete key) :=
    fun key hkey => Lockstep.delete hA hR store hview key
      fun p hp w => p.delete_confined (hplace p key hp hkey) w
  suffices hrun : Lockstep (fun w v => v = w ∧ True) (Confined view reach)
      (store.perform operation) from hrun.ensures ⟨rfl, trivial⟩
  cases operation with
  | write request =>
    exact (Lockstep.write_of hA hR store hview htemps
      (fun p hp key hkey => hstored p key hp hkey) hnames hfiles).map _
  | read key dest => exact (Lockstep.readInto hA hR store hview key hfiles).map _
  | stream key =>
    refine Lockstep.bind_of hR (Lockstep.openStream hA hR store hview key).1
      (Lockstep.openStream hA hR store hview key).2 fun stream? hstream => ?_
    cases stream? with
    | none => exact Lockstep.pure hR _
    | some stream => exact (Lockstep.drain hA hR (hstream stream rfl)).map _
  | file key =>
    refine Lockstep.bind_of hR (Lockstep.localFile hA hR store hview key).1
      (Lockstep.localFile hA hR store hview key).2 fun lookup hlookup => ?_
    cases lookup with
    | found path => exact (Lockstep.fileContent hA hR (hlookup path rfl)).map _
    | missing => exact Lockstep.pure hR _
    | unknown => exact Lockstep.pure hR _
  | contains key => exact (Lockstep.contains hA hR store hview key).map _
  | delete key => exact (hdeleted key hnames).map _
  | copy key source? sourceKey move =>
    obtain ⟨rfl, hkey, hsource⟩ := hnames
    refine (Lockstep.copy_of hA hR hR.leads store htemps hview (hdeleted sourceKey hsource) key
      move (fun p hp => hstored p key hp hkey) fun o r hr => ?_).map _
    refine Lockstep.call hA fun w => (Container.copyToFree_spec _ _ _).mono ?_ ?_
    · rintro _ d ⟨hfollows, -, content, -, hobjects⟩
      exact ⟨hfollows, PlainStore.confined_of_put (hplace _ key hr hkey)
        (r.put_looks (.refl w) hfollows hobjects)⟩
    · rintro _ d ⟨hlooks | ⟨hfollows, -, -, content, -, hobjects⟩, -⟩
      · exact ⟨hlooks.1, .of_looks (.of_container hlooks)⟩
      · exact ⟨hfollows, PlainStore.confined_of_put (hplace _ key hr hkey)
          (r.put_looks (.refl w) hfollows hobjects)⟩
  | clear =>
    refine (Lockstep.clear_of hA hR store hview fun p hp w => ?_).map _
    refine p.clear_confined (fun place hplace => hclear rfl place ?_) w
    rwa [Store.base_of_wraps hp]
  | evict =>
    cases store with
    | caching _ _ _ => exact (Lockstep.evictExcept hA hR hview.1 none).map _
    | memory _ => exact Lockstep.pure hR _
    | remote _ => exact Lockstep.pure hR _

/-- So does a run of operations. -/
theorem Store.run_confined {view : String → Prop} {reach : Place → Prop} {store : Store}
    {steps : List Step}
    (hsteps : ∀ s ∈ steps, ∀ w, Ensures (store.perform s.operation) w
      (fun _ v => w.Confined view reach v) fun _ v => w.Confined view reach v) (w : World) :
    w.Confined view reach (store.run w steps) := by
  unfold Store.run
  induction steps generalizing w with
  | nil => exact .of_looks (.refl w)
  | cons s steps ih =>
    have hnow : w.Confined view reach { w with now := s.time } := ⟨fun _ _ => rfl, fun _ _ => rfl⟩
    have hstep : ({ w with now := s.time } : World).Confined view reach (store.step w s).after := by
      rcases Store.step_spec (hsteps s List.mem_cons_self { w with now := s.time }) with
        ⟨_, -, hafter⟩ | ⟨_, -, hafter⟩
      · exact hafter
      · exact hafter
    exact (hnow.trans hstep).trans (ih (fun t ht => hsteps t (List.mem_cons_of_mem _ ht)) _)

/-! ## Collections -/

namespace PlainStore

variable {p : PlainStore} {view : String → Prop}

/-- Listing for a collection changes nothing. -/
theorem begin_confined (algorithm : DigestAlgorithm) (pageSize : Nat) (order : SweepOrder)
    (w : World) :
    Ensures (p.collector algorithm pageSize order).begin w
      (fun _ v => w.Confined view p.Reaches v) fun _ v => w.Confined view p.Reaches v :=
  (p.begin_looks algorithm pageSize order w).mono (fun _ _ h => .of_looks h)
    fun _ _ h => .of_looks h

/-- Removing a key from a catalog changes bytes at its place only. -/
theorem catalog_remove_confined {reach : Place → Prop} {key : String}
    (hreach : reach (p.place key)) (w : World) :
    w.Confined view reach (p.catalog.remove key w) := by
  cases p with
  | memory m => exact confined_drop (p := memory m) hreach w
  | remote r => exact r.confined_erase hreach w

/-- A sweep of digest candidates changes bytes only where the store can have blobs. -/
theorem sweep_confined (algorithm : DigestAlgorithm) (pageSize : Nat) (order : SweepOrder)
    {pass : GcPass} (hpass : ∀ key ∈ pass.candidates, PlainChars key.toList) (delete : Bool)
    (w : World) :
    Ensures ((p.collector algorithm pageSize order).sweep pass delete) w
      (fun _ v => w.Confined view p.Reaches v) fun _ v => w.Confined view p.Reaches v := by
  unfold GarbageCollector.sweep
  split
  · refine p.reclaimAll_admits (Confined.admits view p.Reaches) _ rfl (fun _ key hkey w => ?_) _ w
    have hcandidate : key ∈ pass.candidates := (order.perm pass.candidates).mem_iff.1 hkey
    exact catalog_remove_confined (p.reaches_place (hpass key hcandidate)) w
  · exact Ensures.throw (.of_looks (.refl w))

end PlainStore

end BlobVault
