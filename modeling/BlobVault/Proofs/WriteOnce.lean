import BlobVault.Gc.Pass
import BlobVault.Proofs.Caching.Directories
import BlobVault.Proofs.Paging

/-!
# Writing once

Bytes lie under the paths of containers and under the keys of memories. Whatever is done through
stores, of any kind and over shared containers, what lies somewhere is not exchanged for other
bytes: a write puts bytes only where none are, a deletion, a clearing or a sweep only takes bytes
away, and a copy does the one and then the other. Requests may fail as they like, carried out or
not, as long as no head makes a present object pass for absent.

1. `World.Fills`, `World.Drops`: the two kinds of changes, and `World.Guarded`: a kind of change, as
   long as heads tell the truth.
2. `PlainStore.storeFile_puts`, `PlainStore.delete_drops`, `PlainStore.clear_drops`: the changes
   that stores without a cache make.
3. `Store.perform_changes`, `PlainStore.sweep_drops`: operations and collections. The loops of
   clearing and of sweeping make every change that goes on and admits their steps
   (`PlainStore.clear_admits`, `PlainStore.reclaimAll_admits`).
4. `World.writes_once`: runs.
-/

namespace BlobVault

open Std (ExtTreeMap)

/-! ## Places -/

/-- Where bytes can lie: under a path of a container, or under a key of a memory. -/
inductive Place
  | object (container path : String)
  | blob (memory key : String)

/-- The fault does not make a present object pass for absent when its head is asked for. -/
def Fault.TellsHeads (f : Fault) : Prop := f.kind = .head → f.error ≠ .notFound

namespace World

/-- What lies at a place. -/
def bytesAt? (w : World) : Place → Option Bytes
  | .object name path => (w.container name).objects[path]?
  | .blob name key => (w.memory name)[key]?

@[simp] theorem bytesAt?_object (w : World) (name path : String) :
    w.bytesAt? (.object name path) = (w.container name).objects[path]? := rfl

@[simp] theorem bytesAt?_blob (w : World) (name key : String) :
    w.bytesAt? (.blob name key) = (w.memory name)[key]? := rfl

/-- No head makes a present object pass for absent. -/
def TellsHeads (w : World) : Prop := ∀ name, ∀ f ∈ (w.container name).faults, f.TellsHeads

/-- Everywhere lies what lay there before. -/
def Keeps (w v : World) : Prop := ∀ place, v.bytesAt? place = w.bytesAt? place

/-- Bytes were only put where none were. -/
def Fills (w v : World) : Prop :=
  ∀ place, v.bytesAt? place = w.bytesAt? place ∨ w.bytesAt? place = none

/-- Bytes were only taken away. -/
def Drops (w v : World) : Prop :=
  ∀ place, v.bytesAt? place = w.bytesAt? place ∨ v.bytesAt? place = none

/-- Bytes were put where none were, and then bytes were taken away. -/
def FillsThenDrops (w v : World) : Prop := ∃ u, w.Fills u ∧ u.Drops v

variable {w v u : World}

theorem Follows.tellsHeads (h : w.Follows v) (hw : w.TellsHeads) : v.TellsHeads := by
  intro name g hg
  obtain ⟨f, hf, hcounted⟩ := (h name).faults g hg
  unfold Fault.TellsHeads
  rw [hcounted.kind, hcounted.error]
  exact hw name f hf

theorem Quiet.tellsHeads (h : w.Quiet) : w.TellsHeads := by
  intro name f hf
  rw [show (w.container name).faults = [] from h name] at hf
  exact absurd hf List.not_mem_nil

theorem Keeps.fills (h : w.Keeps v) : w.Fills v := fun place => .inl (h place)

theorem Keeps.drops (h : w.Keeps v) : w.Drops v := fun place => .inl (h place)

theorem Keeps.trans (h : w.Keeps v) (h' : v.Keeps u) : w.Keeps u := fun place =>
  (h' place).trans (h place)

theorem Fills.trans (h : w.Fills v) (h' : v.Fills u) : w.Fills u := by
  intro place
  rcases h place with heq | hnone
  · rw [← heq]
    exact h' place
  · exact .inr hnone

theorem Drops.trans (h : w.Drops v) (h' : v.Drops u) : w.Drops u := by
  intro place
  rcases h' place with heq | hnone
  · rw [heq]
    exact h place
  · exact .inr hnone

theorem Fills.thenDrops (h : w.Fills v) : w.FillsThenDrops v := ⟨v, h, fun _ => .inl rfl⟩

theorem Drops.afterFills (h : w.Drops v) : w.FillsThenDrops v := ⟨w, fun _ => .inl rfl, h⟩

/-- What lies at a place before and after such a change is the same. -/
theorem FillsThenDrops.eq_of_some (h : w.FillsThenDrops v) {place : Place} {before after : Bytes}
    (hw : w.bytesAt? place = some before) (hv : v.bytesAt? place = some after) :
    after = before := by
  obtain ⟨u, hfills, hdrops⟩ := h
  have hu : u.bytesAt? place = some before := by
    rcases hfills place with heq | hnone
    · rw [heq, hw]
    · rw [hnone] at hw
      exact absurd hw nofun
  rcases hdrops place with heq | hnone
  · rw [hu, hv] at heq
    exact Option.some.inj heq
  · rw [hnone] at hv
    exact absurd hv nofun

theorem keeps_of_objects
    (hobjects : ∀ name, (v.container name).objects = (w.container name).objects)
    (hmemories : v.memories = w.memories) : w.Keeps v := by
  intro place
  cases place with
  | object name path => simp only [bytesAt?_object, hobjects]
  | blob name key => simp only [bytesAt?_blob, memory, hmemories]

theorem Looks.keeps (h : w.Looks v) : w.Keeps v :=
  keeps_of_objects h.objects (by rw [h.rest])

/-! ## Kinds of changes -/

/-- As long as heads tell the truth, they go on to do so, and the change is of the kind. -/
def Guarded (R : World → World → Prop) (w v : World) : Prop :=
  w.TellsHeads → v.TellsHeads ∧ R w v

theorem Guarded.mono {R S : World → World → Prop} (h : Guarded R w v)
    (hRS : R w v → S w v) : Guarded S w v := fun hw => ⟨(h hw).1, hRS (h hw).2⟩

theorem Guarded.of_follows {R : World → World → Prop} (h : w.Follows v) (hR : R w v) :
    Guarded R w v := fun hw => ⟨h.tellsHeads hw, hR⟩

/-- A kind of changes that holds still and goes on is admitted with its guard. -/
theorem admits_guarded (view : String → Prop) {R : World → World → Prop}
    (hkeeps : ∀ {w v : World}, w.Keeps v → R w v)
    (htrans : ∀ {w v u : World}, R w v → R v u → R w u) : Admits view (Guarded R) where
  spares h := .of_follows (fun name => (h.containers name).1)
    (hkeeps (keeps_of_objects (fun name => (h.containers name).2) h.memories))
  trans h h' hu :=
    ⟨(h' (h hu).1).1, htrans (h hu).2 (h' (h hu).1).2⟩

theorem admits_keeps (view : String → Prop) : Admits view (Guarded Keeps) :=
  admits_guarded view id Keeps.trans

theorem admits_fills (view : String → Prop) : Admits view (Guarded Fills) :=
  admits_guarded view Keeps.fills Fills.trans

theorem admits_drops (view : String → Prop) : Admits view (Guarded Drops) :=
  admits_guarded view Keeps.drops Drops.trans

theorem leads_fills : Leads (Guarded Fills) (Guarded FillsThenDrops) where
  here h := h.mono Fills.thenDrops
  before h h' hu := by
    obtain ⟨hv, hfills⟩ := h hu
    obtain ⟨hw, x, hfills', hdrops⟩ := h' hv
    exact ⟨hw, x, hfills.trans hfills', hdrops⟩

end World

open World (Guarded Keeps Fills Drops FillsThenDrops)

/-! ## Stores without a cache -/

namespace PlainStore

/-- The place of an address of a store. -/
def placeOf : PlainStore → String → Place
  | .memory m, address => .blob m.memory address
  | .remote r, address => .object r.container address

theorem bytesAt?_placeOf (p : PlainStore) (w : World) (address : String) :
    w.bytesAt? (p.placeOf address) = (p.objects w)[address]? := by
  cases p with
  | memory m => rfl
  | remote r => rfl

/-- What lies at no address of a store is no concern of it. -/
theorem bytesAt?_setObjects_of_ne (p : PlainStore) (w : World) (blobs : Blobs) {place : Place}
    (hne : ∀ address, place ≠ p.placeOf address) :
    (p.setObjects w blobs).bytesAt? place = w.bytesAt? place := by
  cases p with
  | memory m =>
    cases place with
    | object container path => rfl
    | blob name key =>
      have hname : m.memory ≠ name := by
        rintro rfl
        exact hne key rfl
      rw [World.bytesAt?_blob, World.bytesAt?_blob]
      unfold setObjects
      rw [World.memory_setMemory_of_ne _ hname]
  | remote r =>
    cases place with
    | blob name key => rfl
    | object name path =>
      have hname : r.container ≠ name := by
        rintro rfl
        exact hne path rfl
      rw [World.bytesAt?_object, World.bytesAt?_object]
      unfold setObjects
      rw [World.container_setContainer_of_ne _ hname]

/-- A store left with some of its objects. -/
theorem drops_setObjects (p : PlainStore) (w : World) {blobs : Blobs}
    (hblobs : ∀ text : String, blobs[text]? = (p.objects w)[text]? ∨ blobs[text]? = none) :
    w.Drops (p.setObjects w blobs) := by
  intro place
  by_cases hplace : ∃ address, place = p.placeOf address
  · obtain ⟨address, rfl⟩ := hplace
    rw [bytesAt?_placeOf, bytesAt?_placeOf, objects_setObjects]
    exact hblobs address
  · left
    exact p.bytesAt?_setObjects_of_ne w blobs fun address heq => hplace ⟨address, heq⟩

/-- Content put under a free key. -/
theorem put_fills (p : PlainStore) {w : World} {key : String} (hfree : p.hold? w key = none)
    (content : Bytes) : w.Fills (p.put w key content) := by
  intro place
  by_cases hplace : ∃ address, place = p.placeOf address
  · obtain ⟨address, rfl⟩ := hplace
    unfold put
    rw [bytesAt?_placeOf, bytesAt?_placeOf, objects_setObjects, ExtTreeMap.getElem?_insert]
    split
    · rename_i hsame
      obtain rfl := Std.LawfulEqCmp.eq_of_compare hsame
      exact .inr hfree
    · exact .inl rfl
  · left
    exact p.bytesAt?_setObjects_of_ne w _ fun address heq => hplace ⟨address, heq⟩

/-- Nothing has changed, or the store was given content for the key; if heads tell the truth, only
because nothing was there. -/
def Puts (p : PlainStore) (key : String) (w v : World) : Prop :=
  w.Looks v ∨ ∃ content, (p.put w key content).Looks v ∧ (w.TellsHeads → p.hold? w key = none)

theorem Puts.fills {p : PlainStore} {key : String} {w v : World} (h : p.Puts key w v) :
    Guarded Fills w v := by
  rcases h with hlooks | ⟨content, hput, hfree⟩
  · exact .of_follows hlooks.follows hlooks.keeps.fills
  · intro hw
    have hfollows := (p.shares_setObjects w _).follows.trans hput.follows
    exact ⟨hfollows.tellsHeads hw, (p.put_fills (hfree hw) content).trans hput.keeps.fills⟩

end PlainStore

namespace RemoteStore

variable (r : RemoteStore) {w : World}

/-- A size means an object, and an absent one an absent object if heads tell the truth. -/
theorem size?_tells (key : String) (w : World) :
    Ensures (r.size? key) w
      (fun size? v => w.Looks v ∧
        (∀ n, size? = some n → ((PlainStore.remote r).hold? w key).isSome) ∧
        (w.TellsHeads → size? = none → (PlainStore.remote r).hold? w key = none))
      fun _ v => w.Looks v := by
  refine (r.find?_spec (Container.head_spec _ (r.pathFor key))).mono ?_ ?_
  · rintro size? v ⟨d, rfl, ⟨n, rfl, hd, hn⟩ | ⟨rfl, path, hd, hcause⟩⟩
    · refine ⟨.of_container hd, fun _ _ => ?_, nofun⟩
      have hsize : ((PlainStore.remote r).hold? w key).map List.length = some n := hn
      rw [← Option.isSome_map, hsize]
      rfl
    · refine ⟨.of_container hd, nofun, fun hw _ => ?_⟩
      rcases hcause with ⟨hnone, -⟩ | ⟨f, hf, hkind, he⟩
      · exact hnone
      · have herror := hw r.container f hf hkind
        cases herr : f.error <;> simp_all [FaultError.at]
  · rintro e v ⟨d, cause, rfl, ⟨hd, -⟩, -⟩
    exact .of_container hd

/-- Storing a file gives the store its content or changes nothing, also where it fails. Where no
fault carries out what it strikes, a failure changes nothing. -/
theorem storeFile_puts (key : String) (file : LocalPath) (length : Nat) (w : World) :
    Ensures (r.storeFile key file length) w (fun _ v => (PlainStore.remote r).Puts key w v)
      fun _ v => (PlainStore.remote r).Puts key w v ∧
        ((PlainStore.remote r).Effectless w → w.Looks v) := by
  have hlooked : ∀ {v}, w.Looks v → (PlainStore.remote r).Puts key w v ∧
      ((PlainStore.remote r).Effectless w → w.Looks v) := fun hv => ⟨.inl hv, fun _ => hv⟩
  unfold storeFile
  refine Ensures.bind ((r.size?_tells key w).mono (fun _ _ h => h) fun _ _ h => hlooked h) ?_
  rintro size? v ⟨hlooks, -, hsize⟩
  split
  · exact Ensures.pure (.inl hlooks)
  rename_i hnone
  have hfree : w.TellsHeads → (PlainStore.remote r).hold? w key = none := fun hw =>
    hsize hw (Option.not_isSome_iff_eq_none.1 hnone)
  have hfollows := (hlooks.containers r.container).1
  dsimp only
  split
  · cases hread : v.read file with
    | error e => exact Ensures.bind_error (fileContent_error hread) (hlooked hlooks)
    | ok content =>
      refine Ensures.bind_ok (fileContent_ok hread) ?_
      have hput : ∀ d, (v.container r.container).Follows d →
          d.objects = (v.container r.container).objects.insert (r.pathFor key).text content →
          (PlainStore.remote r).Puts key w (v.setContainer r.container d) := fun d hd hobjects =>
        .inr ⟨content, r.put_looks hlooks hd hobjects, hfree⟩
      have hfailed : ∀ d P, (v.container r.container).Left d P →
          (P d → d.objects = (v.container r.container).objects.insert (r.pathFor key).text content) →
          (PlainStore.remote r).Puts key w (v.setContainer r.container d) ∧
            ((PlainStore.remote r).Effectless w → w.Looks (v.setContainer r.container d)) := by
        rintro d P (hd | ⟨hd, heffect, hP⟩) hobjects
        · exact hlooked (hlooks.trans (.of_container hd))
        · exact ⟨hput d hd (hobjects hP), fun hw => absurd (hfollows.effectless hw) heffect⟩
      refine (r.ensure_spec (Container.create_spec _ (r.pathFor key) content)).mono ?_ ?_
      · rintro _ u ⟨d, rfl, ⟨hfollows, -, hobjects⟩ | ⟨path, hd, -⟩⟩
        · exact hput d hfollows hobjects
        · exact (hfailed d _ hd And.right).1
      · rintro e u ⟨d, cause, rfl, ⟨hd, -⟩, -⟩
        exact hfailed d _ hd And.right
  · have hput : ∀ u content, ((PlainStore.remote r).put v key content).Looks u →
        (PlainStore.remote r).Puts key w u := fun u content hu =>
      .inr ⟨content, (PlainStore.put_of_looks hlooks (.remote r) key content).trans hu, hfree⟩
    refine r.uploadParts_spec.mono ?_ ?_
    · rintro _ u ⟨content, -, hu⟩
      exact hput u content hu
    · rintro _ u ⟨hu | ⟨heffect, content, hu⟩, -⟩
      · exact hlooked (hlooks.trans hu)
      · exact ⟨hput u content hu, fun hw => absurd (hfollows.effectless hw) heffect⟩

end RemoteStore

namespace PlainStore

variable (p : PlainStore)

/-- Storing a file gives the store its content or changes nothing, also where it fails. Where no
fault carries out what it strikes, a failure changes nothing. -/
theorem storeFile_puts (key : String) (file : LocalPath) (length : Nat) (w : World) :
    Ensures (p.storeFile key file length) w (fun _ v => p.Puts key w v)
      fun _ v => p.Puts key w v ∧ (p.Effectless w → w.Looks v) := by
  cases p with
  | remote r => exact r.storeFile_puts key file length w
  | memory m =>
    have hfind : m.find? key w = .ok ((memory m).hold? w key) w := rfl
    refine Ensures.bind_ok hfind ?_
    cases hfree : (memory m).hold? w key with
    | some held => exact Ensures.pure (.inl (.refl w))
    | none =>
      cases hread : w.read file with
      | error e =>
        exact Ensures.bind_error (fileContent_error hread) ⟨.inl (.refl w), fun _ => .refl w⟩
      | ok content =>
        refine Ensures.bind_ok (fileContent_ok hread) (Ensures.modify ?_)
        exact .inr ⟨content, .refl _, fun _ => hfree⟩

theorem drops_drop (w : World) (key : String) : w.Drops (p.drop w key) := by
  refine p.drops_setObjects w fun text => ?_
  rw [ExtTreeMap.getElem?_erase]
  split
  · exact .inr rfl
  · exact .inl rfl

theorem erase_drops (r : RemoteStore) (key : String) (w : World) :
    Guarded Drops w (r.erase key w) := by
  refine .of_follows (shares_erase r key w).follows ?_
  rcases r.erase_spec key w with h | ⟨h, -⟩
  · exact ((remote r).drops_drop w key).trans h.keeps.drops
  · exact h.keeps.drops

/-- Deleting a blob only takes bytes away. -/
theorem delete_drops (key : String) (w : World) :
    Ensures (p.toStore.delete key) w (fun _ v => Guarded Drops w v)
      fun _ v => Guarded Drops w v := by
  cases p with
  | remote r => exact Ensures.modify (erase_drops r key w)
  | memory m =>
    exact Ensures.modify (.of_follows ((memory m).follows_drop w key) ((memory m).drops_drop w key))

/-- Clearing a remote store lists it and erases what is listed: it makes every change that goes on
and admits both. -/
theorem clear_admits (r : RemoteStore) {view : String → Prop} {R : World → World → Prop}
    (hR : Admits view R) (w : World)
    (herase : ∀ blob : ListedBlob, .ok blob ∈ (r.list w).1 → ∀ u : World,
      R u (r.erase blob.key u)) :
    Ensures r.clear w (fun _ v => R w v) fun _ v => R w v := by
  have hlist : w.Looks (r.list w).2 := .of_container (Container.list_spec _ r.space.top?).1
  have hfold : ∀ blobs : List ListedBlob, (∀ blob ∈ blobs, .ok blob ∈ (r.list w).1) →
      ∀ u, R w u → R w (blobs.foldl (fun u blob => r.erase blob.key u) u) := by
    intro blobs
    induction blobs with
    | nil => exact fun _ u hu => hu
    | cons blob blobs ih =>
      intro hlisted u hu
      exact ih (fun b hb => hlisted b (List.mem_cons_of_mem _ hb)) _
        (hR.trans hu (herase blob (hlisted blob List.mem_cons_self) u))
  have hdone := hfold ((Pager.ofListing (r.list w).1 defaultPageSize).readAll.1.flatten)
    (fun _ hblob => Pager.mem_of_mem_readAll hblob) _ (hR.spares (hlist.spares view))
  unfold Ensures RemoteStore.clear
  dsimp only
  cases (Pager.ofListing (r.list w).1 defaultPageSize).readAll.2 <;> exact hdone

/-- Clearing a store only takes bytes away. -/
theorem clear_drops (w : World) :
    Ensures p.toStore.clear w (fun _ v => Guarded Drops w v) fun _ v => Guarded Drops w v := by
  cases p with
  | memory m =>
    have hdrops : w.Drops ((memory m).setObjects w ∅) :=
      (memory m).drops_setObjects w fun _ => .inr ExtTreeMap.getElem?_empty
    exact Ensures.modify (.of_follows (shares_setObjects (memory m) w ∅).follows hdrops)
  | remote r =>
    exact clear_admits r (World.admits_drops fun _ => True) w fun blob _ => erase_drops r blob.key

end PlainStore

/-! ## Operations -/

/-- The changes that an operation may make: a write fills, deleting and clearing take away, a copy
fills and then takes away, and nothing else changes what lies anywhere. -/
def Operation.Changes : Operation → World → World → Prop
  | .write _ => Fills
  | .delete _ | .clear => Drops
  | .copy _ _ _ _ => FillsThenDrops
  | .read _ _ | .stream _ | .file _ | .contains _ | .evict => Keeps

/-- Every world is related to itself alone. -/
theorem related_eq : Related (fun _ => True) fun w v => v = w ∧ True :=
  Lasts.related (P := fun _ => True) ⟨fun _ _ _ => trivial, fun _ _ _ => trivial,
    fun _ _ _ _ _ _ => trivial, fun _ _ _ => trivial, fun _ _ => trivial, fun _ _ => trivial⟩

/-- Every operation of every store makes only the changes that it may make, whether it goes through
or fails. -/
theorem Store.perform_changes (store : Store) (operation : Operation) (w : World) :
    Ensures (store.perform operation) w (fun _ v => Guarded operation.Changes w v)
      fun _ v => Guarded operation.Changes w v := by
  have hA := related_eq
  have hview := store.inView_true
  have htemp : ∀ p : PlainStore, store.Wraps p → p.tempDir.InView fun _ => True :=
    fun p _ => p.tempDir.inView_true
  have hkeeps := World.admits_keeps fun _ => True
  have hfills := World.admits_fills fun _ => True
  have hdrops := World.admits_drops fun _ => True
  have hstored : ∀ (p : PlainStore) key file length,
      Lockstep (fun w v => v = w ∧ True) (Guarded Fills) (p.storeFile key file length) :=
    fun p key file length => (Lockstep.storeFile hA p key file.inView_true length).strengthen
      fun w => (p.storeFile_puts key file length w).mono (fun _ _ h => h.fills)
        fun _ _ h => h.1.fills
  have hdeleted : ∀ (target : Store) key,
      Lockstep (fun w v => v = w ∧ True) (Guarded Drops) (target.delete key) :=
    fun target key => Lockstep.delete hA hdrops target target.inView_true key
      fun p _ w => p.delete_drops key w
  suffices hrun : Lockstep (fun w v => v = w ∧ True) (Guarded operation.Changes)
      (store.perform operation) from hrun.ensures ⟨rfl, trivial⟩
  cases operation with
  | write request =>
    exact (Lockstep.write_of hA hfills store hview htemp
      (fun p _ key _ file _ length => hstored p key file length) request.settles_true
      fun path _ => path.inView_true).map _
  | read key dest => exact (Lockstep.readInto hA hkeeps store hview key dest.inView_true).map _
  | stream key =>
    refine (Lockstep.openStream hA hkeeps store hview key).1.bind hkeeps fun stream? => ?_
    cases stream? with
    | none => exact Lockstep.pure hkeeps _
    | some stream =>
      have hstream : stream.InView fun _ => True := by
        cases stream with
        | delivery _ => trivial
        | file path => exact path.inView_true
      exact (Lockstep.drain hA hkeeps hstream).map _
  | file key =>
    refine (Lockstep.localFile hA hkeeps store hview key).1.bind hkeeps fun lookup => ?_
    cases lookup with
    | found path => exact (Lockstep.fileContent hA hkeeps path.inView_true).map _
    | missing => exact Lockstep.pure hkeeps _
    | unknown => exact Lockstep.pure hkeeps _
  | contains key => exact (Lockstep.contains hA hkeeps store hview key).map _
  | delete key => exact (hdeleted store key).map _
  | copy key source? sourceKey move =>
    refine (Lockstep.copy_of hA hfills World.leads_fills store htemp
      (source?.getD store).inView_true ((hdeleted _ sourceKey).mono fun h => ?_) key move
      (fun p _ file _ length => hstored p key file length) fun o r _ => ?_).map _
    · exact h.mono Drops.afterFills
    · -- the container copies to free paths only
      refine Lockstep.call hA fun w => ?_
      have hcopied : ∀ d, (w.container r.container).Follows d →
          ((w.container r.container).find? (r.pathFor key) = none ∧
            ∃ content, (w.container r.container).find? (o.pathFor sourceKey) = some content ∧
              d.objects =
                (w.container r.container).objects.insert (r.pathFor key).text content) →
          Guarded Fills w (w.setContainer r.container d) := by
        rintro d hfollows ⟨hfree, content, -, hobjects⟩
        have hputs : (PlainStore.remote r).Puts key w (w.setContainer r.container d) :=
          .inr ⟨content, r.put_looks (.refl w) hfollows hobjects, fun _ => hfree⟩
        exact hputs.fills
      refine (Container.copyToFree_spec _ _ _).mono ?_ ?_
      · exact fun _ d h => ⟨h.1, hcopied d h.1 h.2⟩
      · rintro _ d ⟨hlooks | ⟨hfollows, -, hdone⟩, -⟩
        · exact ⟨hlooks.1, hfills.spares (World.Looks.spares (.of_container hlooks) _)⟩
        · exact ⟨hfollows, hcopied d hfollows hdone⟩
  | clear => exact (Lockstep.clear_of hA hdrops store hview fun p _ w => p.clear_drops w).map _
  | evict =>
    cases store with
    | caching _ _ _ => exact (Lockstep.evictExcept hA hkeeps trivial none).map _
    | memory _ => exact Lockstep.pure hkeeps _
    | remote _ => exact Lockstep.pure hkeeps _

/-! ## Collections -/

namespace PlainStore

variable (p : PlainStore)

/-- A collector on the catalog of the store. -/
def collector (algorithm : DigestAlgorithm) (pageSize : Nat) (order : SweepOrder) :
    GarbageCollector World :=
  ⟨p.catalog, algorithm, pageSize, order⟩

theorem catalog_list_looks (w : World) : w.Looks (p.catalog.list w).2 := by
  cases p with
  | memory m => exact .refl w
  | remote r => exact .of_container (Container.list_spec _ r.space.top?).1

theorem catalog_size?_looks (key : String) (w : World) :
    Ensures (p.catalog.size? key) w (fun _ v => w.Looks v) fun _ v => w.Looks v := by
  cases p with
  | memory m => exact Ensures.of_ok rfl (.refl w)
  | remote r =>
    refine (r.find?_spec (Container.head_spec _ (r.pathFor key))).mono ?_ ?_
    · rintro _ v ⟨d, rfl, ⟨n, -, hd, -⟩ | ⟨-, path, hd, -⟩⟩
      · exact .of_container hd
      · exact .of_container hd
    · rintro _ v ⟨d, cause, rfl, ⟨hd, -⟩, -⟩
      exact .of_container hd

theorem catalog_remove_drops (key : String) (w : World) :
    Guarded Drops w (p.catalog.remove key w) := by
  cases p with
  | memory m =>
    exact .of_follows ((memory m).follows_drop w key) ((memory m).drops_drop w key)
  | remote r => exact erase_drops r key w

/-- Listing for a collection only looks at the store. -/
theorem begin_looks (algorithm : DigestAlgorithm) (pageSize : Nat) (order : SweepOrder)
    (w : World) :
    Ensures (p.collector algorithm pageSize order).begin w (fun _ v => w.Looks v)
      fun _ v => w.Looks v := by
  have hlist := p.catalog_list_looks w
  unfold Ensures GarbageCollector.begin
  dsimp only
  cases (Pager.ofListing ((p.collector algorithm pageSize order).catalog.list w).1
    (p.collector algorithm pageSize order).pageSize).readAll with
  | mk pages failure? => cases failure? <;> exact hlist

/-- Listing for a collection changes nothing. -/
theorem begin_keeps (algorithm : DigestAlgorithm) (pageSize : Nat) (order : SweepOrder)
    (w : World) :
    Ensures (p.collector algorithm pageSize order).begin w (fun _ v => Guarded Keeps w v)
      fun _ v => Guarded Keeps w v :=
  (p.begin_looks algorithm pageSize order w).mono (fun _ _ h => .of_follows h.follows h.keeps)
    fun _ _ h => .of_follows h.follows h.keeps

/-- Reclaiming looks at the store and removes keys from it: it makes every change that goes on and
admits both. -/
theorem reclaimAll_admits {view : String → Prop} {R : World → World → Prop}
    (hR : Admits view R) (gc : GarbageCollector World) (hcatalog : gc.catalog = p.catalog)
    {delete : Bool} {keys : List String}
    (hremove : delete = true → ∀ key ∈ keys, ∀ w : World, R w (p.catalog.remove key w))
    (status : GcStatus) (w : World) :
    Ensures (gc.reclaimAll delete keys status) w (fun _ v => R w v) fun _ v => R w v := by
  have hlook : ∀ {w v : World}, w.Looks v → R w v := fun h => hR.spares (h.spares view)
  -- by induction on the keys still to be taken
  induction keys generalizing status w with
  | nil => exact Ensures.pure (hlook (.refl w))
  | cons key keys ih =>
    have ih := ih fun hdelete k hk => hremove hdelete k (List.mem_cons_of_mem _ hk)
    have hgo : ∀ {v : World}, R w v → ∀ status, Ensures (gc.reclaimAll delete keys status) v
        (fun _ u => R w u) fun _ u => R w u := fun hv status =>
      (ih status _).mono (fun _ _ h => hR.trans hv h) fun _ _ h => hR.trans hv h
    have hsize := p.catalog_size?_looks key w
    rw [← hcatalog] at hsize
    refine Ensures.bind (hsize.mono (fun _ _ h => hlook h) fun _ _ h => hlook h) ?_
    intro size? v hv
    cases size? with
    | none => exact hgo hv status
    | some size =>
      cases delete with
      | false => exact hgo hv _
      | true =>
        have hremoved := hremove rfl key List.mem_cons_self v
        rw [← hcatalog] at hremoved
        exact Ensures.bind (Q := fun _ u => R w u) (Ensures.modify (hR.trans hv hremoved))
          fun _ u hu => hgo hu _

/-- A sweep only takes bytes away, whatever the pass and wherever it ends. -/
theorem sweep_drops (algorithm : DigestAlgorithm) (pageSize : Nat) (order : SweepOrder)
    (pass : GcPass) (delete : Bool) (w : World) :
    Ensures ((p.collector algorithm pageSize order).sweep pass delete) w
      (fun _ v => Guarded Drops w v) fun _ v => Guarded Drops w v := by
  have hR := World.admits_drops fun _ => True
  unfold GarbageCollector.sweep
  split
  · exact p.reclaimAll_admits hR _ rfl (fun _ key _ w => p.catalog_remove_drops key w) _ w
  · exact Ensures.throw (hR.spares ((World.Looks.refl w).spares _))

end PlainStore

/-! ## Runs -/

/-- Something that happens between operations and moves no bytes: time passes, faults come and go,
files of the caller's or of a cache change. -/
structure Interlude where
  change : World → World
  keeps : ∀ w : World, w.Keeps (change w)
  tellsHeads : ∀ w : World, w.TellsHeads → (change w).TellsHeads

/-- What can happen in a run: an operation on some store, the listing or the sweep of a collection,
or an interlude. -/
inductive Event
  | operation (store : Store) (operation : Operation)
  | listing (store : PlainStore) (algorithm : DigestAlgorithm) (pageSize : Nat)
  | sweep (store : PlainStore) (algorithm : DigestAlgorithm) (order : SweepOrder) (pass : GcPass)
      (delete : Bool)
  | interlude (i : Interlude)

namespace Event

/-- The world after an event. -/
def happen (w : World) : Event → World
  | operation store op => w.after (store.perform op)
  | listing store algorithm pageSize =>
    w.after (store.collector algorithm pageSize .listed).begin
  | sweep store algorithm order pass delete =>
    w.after ((store.collector algorithm defaultPageSize order).sweep pass delete)
  | interlude i => i.change w

/-- The changes that an event may make. -/
def Changes : Event → World → World → Prop
  | operation _ op => op.Changes
  | listing _ _ _ | interlude _ => Keeps
  | sweep _ _ _ _ _ => Drops

/-- Whatever an event may do, it is filling and then taking away. -/
theorem Changes.fillsThenDrops {event : Event} {w v : World} (h : event.Changes w v) :
    w.FillsThenDrops v := by
  cases event with
  | operation store op =>
    cases op with
    | write _ => exact Fills.thenDrops h
    | copy _ _ _ _ => exact h
    | delete _ | clear => exact Drops.afterFills h
    | read _ _ | stream _ | file _ | contains _ | evict => exact (Keeps.fills h).thenDrops
  | listing _ _ _ => exact (Keeps.fills h).thenDrops
  | sweep _ _ _ _ _ => exact Drops.afterFills h
  | interlude _ => exact (Keeps.fills h).thenDrops

theorem happen_changes (event : Event) (w : World) :
    Guarded event.Changes w (event.happen w) := by
  cases event with
  | operation store op => exact World.after_spec (store.perform_changes op w)
  | listing store algorithm pageSize =>
    exact World.after_spec (store.begin_keeps algorithm pageSize .listed w)
  | sweep store algorithm order pass delete =>
    exact World.after_spec (store.sweep_drops algorithm defaultPageSize order pass delete w)
  | interlude i => exact fun hw => ⟨i.tellsHeads w hw, i.keeps w⟩

end Event

namespace World

/-- The world after the first so many events of a run. -/
def moment (w : World) (events : List Event) (k : Nat) : World :=
  (events.take k).foldl Event.happen w

variable {w : World} {events : List Event}

@[simp] theorem moment_zero (w : World) (events : List Event) : w.moment events 0 = w := rfl

theorem moment_succ {k : Nat} {event : Event} (h : events[k]? = some event) :
    w.moment events (k + 1) = event.happen (w.moment events k) := by
  unfold moment
  exact foldl_take_succ Event.happen w h

theorem moment_of_length_le {k : Nat} (h : events.length ≤ k) :
    w.moment events (k + 1) = w.moment events k := by
  unfold moment
  rw [List.take_of_length_le h, List.take_of_length_le (by omega)]

theorem tellsHeads_moment (hw : w.TellsHeads) (events : List Event) (k : Nat) :
    (w.moment events k).TellsHeads := by
  induction k with
  | zero => exact hw
  | succ k ih =>
    by_cases hk : k < events.length
    · rw [moment_succ (List.getElem?_eq_getElem hk)]
      exact (Event.happen_changes _ _ ih).1
    · rw [moment_of_length_le (by omega)]
      exact ih

/-- From one moment of a run to the next, bytes are put where none were, and bytes are taken
away. -/
theorem fillsThenDrops_moment (hw : w.TellsHeads) (events : List Event) (k : Nat) :
    (w.moment events k).FillsThenDrops (w.moment events (k + 1)) := by
  by_cases hk : k < events.length
  · have hevent := List.getElem?_eq_getElem hk
    rw [moment_succ hevent]
    exact (Event.happen_changes _ _ (tellsHeads_moment hw events k)).2.fillsThenDrops
  · rw [moment_of_length_le (by omega)]
    exact Fills.thenDrops fun _ => .inl rfl

/-- **Writing once.** In every run over any stores, in which no head makes a present object pass for
absent, each event makes only the changes that it may make: writes fill, deletions, clearings and
sweeps take away, copies fill and take away. So a place with bytes before and after an event has the
same bytes, and bytes stay what they are as long as there are bytes at their place. -/
theorem writes_once (w : World) (hw : w.TellsHeads) (events : List Event) :
    (∀ (k : Nat) (event : Event), events[k]? = some event →
      event.Changes (w.moment events k) (w.moment events (k + 1))) ∧
    (∀ (k : Nat) (place : Place) (before after : Bytes),
      (w.moment events k).bytesAt? place = some before →
      (w.moment events (k + 1)).bytesAt? place = some after → after = before) ∧
    ∀ (i j : Nat) (place : Place), i ≤ j →
      (∀ k, i ≤ k → k ≤ j → (w.moment events k).bytesAt? place ≠ none) →
      (w.moment events j).bytesAt? place = (w.moment events i).bytesAt? place := by
  have hstep : ∀ (k : Nat) (place : Place) (before after : Bytes),
      (w.moment events k).bytesAt? place = some before →
      (w.moment events (k + 1)).bytesAt? place = some after → after = before :=
    fun k place before after hbefore hafter =>
      (fillsThenDrops_moment hw events k).eq_of_some hbefore hafter
  refine ⟨fun k event hevent => ?_, hstep, fun i j place hij hpresent => ?_⟩
  · rw [moment_succ hevent]
    exact (Event.happen_changes event _ (tellsHeads_moment hw events k)).2
  · -- by induction on the later moment
    induction j, hij using Nat.le_induction with
    | base => rfl
    | succ j hij ih =>
      have heq := ih fun k hik hkj => hpresent k hik (by omega)
      obtain ⟨before, hbefore⟩ := Option.ne_none_iff_exists'.1 (hpresent j hij (by omega))
      obtain ⟨after, hafter⟩ := Option.ne_none_iff_exists'.1 (hpresent (j + 1) (by omega) le_rfl)
      rw [← heq, hbefore, hafter, hstep j place before after hbefore hafter]

/-- An upload in parts through a cache, under a text that names the path of an object, leaves the
object as it is. -/
theorem writes_once_under_alias :
    let r : RemoteStore := {
      name := "vault"
      location := ⟨"account", "box"⟩
      container := "box"
      threshold := 0
      tempDir := .scratch "temps" }
    let store : Store := .caching "cached" ⟨"cache", ⟨10, 2, 0⟩⟩ (.remote r)
    let w : World := ({} : World).setContainer "box" { objects := ExtTreeMap.insert ∅ "k" [1] }
    let events : List Event :=
      [.operation store (.write { source := .stream [.ok [2]], key? := some "/k" })]
    w.TellsHeads ∧ (r.pathFor "/k").text = "k" ∧
      (w.moment events 1).bytesAt? (.object "box" "k") = some [1] := by
  intro r store w events
  have hbox : w.container "box" = { objects := ExtTreeMap.insert ∅ "k" [1] } :=
    container_setContainer_self _ _ _
  have hw : w.TellsHeads := Quiet.tellsHeads (quiet_of_container rfl rfl)
  have hold : w.bytesAt? (.object "box" "k") = some [1] := by
    rw [bytesAt?_object, hbox]
    exact ExtTreeMap.getElem?_insert_self
  refine ⟨hw, by decide, ?_⟩
  rcases (writes_once w hw events).1 0 _ rfl (.object "box" "k") with heq | hnone
  · rw [← hold]
    exact heq
  · rw [moment_zero, hold] at hnone
    exact absurd hnone nofun

end World

end BlobVault
