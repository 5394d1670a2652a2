import BlobVault.Catalog
import BlobVault.Proofs.KeyStrategy
import BlobVault.Proofs.World

/-!
# Stores without a cache

A memory store and a remote store keep blobs as objects under addresses. This module has that view
of both and what their requests ensure in its terms.
-/

namespace BlobVault

/-! ## Talking to a container -/

namespace RemoteStore

variable {α : Type} (r : RemoteStore) {w : World} {x : Call α} {Q : α → Container → Prop}
  {E : ContainerError → Container → Prop}

theorem call_spec (h : Ensures x (w.container r.container) Q E) :
    Ensures (r.call x) w
      (fun answer v => ∃ d, v = w.setContainer r.container d ∧
        ((∃ a, answer = .ok a ∧ Q a d) ∨ ∃ e, answer = .error e ∧ E e d))
      NoError := by
  cases heq : x (w.container r.container) with
  | ok a d =>
    refine Ensures.of_ok (a := .ok a) (t := w.setContainer r.container d) ?_
      ⟨d, rfl, .inl ⟨a, rfl, h.ok_of_eq heq⟩⟩
    unfold call
    rw [heq]
  | error e d =>
    refine Ensures.of_ok (a := .error e) (t := w.setContainer r.container d) ?_
      ⟨d, rfl, .inr ⟨e, rfl, h.error_of_eq heq⟩⟩
    unfold call
    rw [heq]

theorem require_spec (h : Ensures x (w.container r.container) Q E) :
    Ensures (r.require x) w (fun a v => ∃ d, v = w.setContainer r.container d ∧ Q a d)
      fun e v => ∃ d cause, v = w.setContainer r.container d ∧ E cause d ∧
        e = .backend (.container cause) := by
  refine Ensures.bind ((r.call_spec h).mono (fun _ _ h => h) fun _ _ h => h.elim) ?_
  rintro answer v ⟨d, rfl, ⟨a, rfl, ha⟩ | ⟨e, rfl, he⟩⟩
  · exact Ensures.pure ⟨d, rfl, ha⟩
  · exact Ensures.throw ⟨d, e, rfl, he, rfl⟩

theorem find?_spec (h : Ensures x (w.container r.container) Q E) :
    Ensures (r.find? x) w
      (fun a? v => ∃ d, v = w.setContainer r.container d ∧
        ((∃ a, a? = some a ∧ Q a d) ∨ (a? = none ∧ ∃ path, E (.notFound path) d)))
      fun e v => ∃ d cause, v = w.setContainer r.container d ∧ E cause d ∧
        (∀ path, cause ≠ .notFound path) ∧ e = .backend (.container cause) := by
  refine Ensures.bind ((r.call_spec h).mono (fun _ _ h => h) fun _ _ h => h.elim) ?_
  rintro answer v ⟨d, rfl, ⟨a, rfl, ha⟩ | ⟨e, rfl, he⟩⟩
  · exact Ensures.pure ⟨d, rfl, .inl ⟨a, rfl, ha⟩⟩
  · split
    · rename_i heq
      exact absurd heq nofun
    · rename_i path heq
      obtain rfl := Except.error.inj heq
      exact Ensures.pure ⟨d, rfl, .inr ⟨rfl, path, he⟩⟩
    · rename_i cause hne heq
      obtain rfl := Except.error.inj heq
      exact Ensures.throw ⟨d, e, rfl, he, fun path hp => hne path (by rw [hp]), rfl⟩

theorem ensure_spec {x : Call Unit} {Q : Unit → Container → Prop}
    (h : Ensures x (w.container r.container) Q E) :
    Ensures (r.ensure x) w
      (fun _ v => ∃ d, v = w.setContainer r.container d ∧
        (Q () d ∨ ∃ path, E (.alreadyExists path) d))
      fun e v => ∃ d cause, v = w.setContainer r.container d ∧ E cause d ∧
        (∀ path, cause ≠ .alreadyExists path) ∧ e = .backend (.container cause) := by
  refine Ensures.bind ((r.call_spec h).mono (fun _ _ h => h) fun _ _ h => h.elim) ?_
  rintro answer v ⟨d, rfl, ⟨a, rfl, ha⟩ | ⟨e, rfl, he⟩⟩
  · exact Ensures.pure ⟨d, rfl, .inl ha⟩
  · split
    · rename_i heq
      exact absurd heq nofun
    · rename_i path heq
      obtain rfl := Except.error.inj heq
      exact Ensures.pure ⟨d, rfl, .inr ⟨path, he⟩⟩
    · rename_i cause hne heq
      obtain rfl := Except.error.inj heq
      exact Ensures.throw ⟨d, e, rfl, he, fun path hp => hne path (by rw [hp]), rfl⟩

end RemoteStore

/-! ## Stores that keep blobs themselves -/

/-- A store that keeps its blobs itself. -/
inductive PlainStore
  | memory (store : MemoryStore)
  | remote (store : RemoteStore)

namespace PlainStore

/-- The store among all stores. -/
def toStore : PlainStore → Store
  | memory m => .memory m
  | remote r => .remote r

/-- The catalog of the store. -/
def catalog : PlainStore → Catalog World
  | memory m => m.catalog
  | remote r => r.catalog

/-- The namespace of a remote store is canonical. -/
def Canonical : PlainStore → Prop
  | memory _ => True
  | remote r => r.space.Canonical

/-- The namespace of a remote store is closed. -/
def Closed : PlainStore → Prop
  | memory _ => True
  | remote r => r.space.Closed

theorem Canonical.closed {p : PlainStore} (h : p.Canonical) : p.Closed := by
  cases p with
  | memory m => trivial
  | remote r => exact Namespace.Canonical.closed h

/-- No fault stands in front of the container of the store. -/
def Quiet (w : World) : PlainStore → Prop
  | memory _ => True
  | remote r => (w.container r.container).Quiet

/-- All faults in front of the container of the store are honest. -/
def Honest (w : World) : PlainStore → Prop
  | memory _ => True
  | remote r => (w.container r.container).Honest

/-- No fault in front of the container of the store carries out what it strikes. -/
def Effectless (w : World) : PlainStore → Prop
  | memory _ => True
  | remote r => (w.container r.container).Effectless

/-- What the memory or the container of the store holds, under its addresses. -/
def objects (w : World) : PlainStore → Blobs
  | memory m => w.memory m.memory
  | remote r => (w.container r.container).objects

/-- The address of a key. -/
def address : PlainStore → String → String
  | memory _, key => key
  | remote r, key => (r.pathFor key).text

/-- What the store holds under a key. -/
def hold? (p : PlainStore) (w : World) (key : String) : Option Bytes :=
  (p.objects w)[p.address key]?

/-- The world in which the memory or the container of the store holds other objects. -/
def setObjects (w : World) (p : PlainStore) (blobs : Blobs) : World :=
  match p with
  | memory m => w.setMemory m.memory blobs
  | remote r =>
    w.setContainer r.container { w.container r.container with objects := blobs }

/-- The world in which the store holds some content under a key. -/
def put (p : PlainStore) (w : World) (key : String) (content : Bytes) : World :=
  p.setObjects w ((p.objects w).insert (p.address key) content)

/-- The world in which the store holds nothing under a key. -/
def drop (p : PlainStore) (w : World) (key : String) : World :=
  p.setObjects w ((p.objects w).erase (p.address key))

@[simp] theorem objects_setObjects (p : PlainStore) (w : World) (blobs : Blobs) :
    p.objects (p.setObjects w blobs) = blobs := by
  cases p with
  | memory m => exact World.memory_setMemory_self w m.memory blobs
  | remote r => exact congrArg Container.objects (World.container_setContainer_self w _ _)

theorem Quiet.setObjects {w : World} {p : PlainStore} (h : p.Quiet w) (blobs : Blobs) :
    p.Quiet (p.setObjects w blobs) := by
  cases p with
  | memory m => trivial
  | remote r =>
    show ((w.setContainer _ _).container r.container).Quiet
    rw [World.container_setContainer_self]
    exact h

/-- Looking leaves what a store holds. -/
theorem objects_of_looks {w v : World} (h : w.Looks v) (p : PlainStore) :
    p.objects v = p.objects w := by
  cases p with
  | memory m =>
    show v.memory m.memory = w.memory m.memory
    rw [h.rest]
    rfl
  | remote r => exact h.objects r.container

theorem hold?_of_looks {w v : World} (h : w.Looks v) (p : PlainStore) (key : String) :
    p.hold? v key = p.hold? w key := by
  unfold hold?
  rw [objects_of_looks h]

theorem Quiet.honest {w : World} {p : PlainStore} (h : p.Quiet w) : p.Honest w := by
  cases p with
  | memory m => trivial
  | remote r => exact Container.Quiet.honest h

theorem Quiet.of_looks {w v : World} (h : w.Looks v) {p : PlainStore} (hp : p.Quiet w) :
    p.Quiet v := by
  cases p with
  | memory m => trivial
  | remote r => exact (h.containers r.container).1.quiet hp

end PlainStore

/-- The size of a blob is that of its object. -/
theorem RemoteStore.size?_spec (r : RemoteStore) (key : String) {w : World}
    (hw : (w.container r.container).Honest) :
    Ensures (r.size? key) w
      (fun size? v => w.Looks v ∧ size? = ((PlainStore.remote r).hold? w key).map List.length)
      fun _ v => w.Looks v ∧ ¬ (w.container r.container).Quiet := by
  refine (r.find?_spec (Container.head_spec _ (r.pathFor key))).mono ?_ ?_
  · rintro size? v ⟨d, rfl, ⟨n, rfl, hd, hn⟩ | ⟨rfl, path, hd, h⟩⟩
    · exact ⟨.of_container hd, hn.symm⟩
    · refine ⟨.of_container hd, ?_⟩
      rcases h with ⟨hnone, -⟩ | hstruck
      · show none = ((w.container r.container).find? (r.pathFor key)).map _
        rw [hnone]
        rfl
      · exact absurd rfl (hstruck.ne_notFound hw (.inl rfl) path)
  · rintro e v ⟨d, cause, rfl, ⟨hd, h⟩, hne, -⟩
    refine ⟨.of_container hd, ?_⟩
    rcases h with ⟨-, rfl⟩ | hstruck
    · exact absurd rfl (hne _)
    · exact hstruck.not_quiet

/-- A request to remove a blob does that, unless a fault strikes it and keeps it from being carried
out. -/
theorem RemoteStore.erase_spec (r : RemoteStore) (key : String) (w : World) :
    ((PlainStore.remote r).drop w key).Looks (r.erase key w) ∨
      (w.Looks (r.erase key w) ∧ ¬ (w.container r.container).Quiet) := by
  have h := Container.delete_spec (w.container r.container) (r.pathFor key)
  unfold erase
  cases heq : Container.delete (r.pathFor key) (w.container r.container) with
  | ok _ d =>
    obtain ⟨hfollows, hobjects⟩ := h.ok_of_eq heq
    exact .inl (.setContainer ⟨⟨hfollows.faults⟩, hobjects⟩)
  | error e d =>
    obtain ⟨hlooks | ⟨hfollows, -, hobjects⟩, hstruck⟩ := h.error_of_eq heq
    · exact .inr ⟨.of_container hlooks, hstruck.not_quiet⟩
    · exact .inl (.setContainer ⟨⟨hfollows.faults⟩, hobjects⟩)

namespace PlainStore

/-- Looking before the objects change is looking after it. -/
theorem setObjects_of_looks {w v : World} (h : w.Looks v) (p : PlainStore) (blobs : Blobs) :
    (p.setObjects w blobs).Looks (p.setObjects v blobs) := by
  cases p with
  | memory m =>
    show (w.setMemory _ _).Looks (v.setMemory _ _)
    rw [h.rest]
    exact ⟨rfl, h.containers⟩
  | remote r =>
    show (w.setContainer r.container _).Looks (v.setContainer r.container _)
    refine ⟨?_, fun name => ?_⟩
    · rw [h.rest]
      rfl
    · by_cases hname : r.container = name
      · rw [← hname, World.container_setContainer_self, World.container_setContainer_self]
        exact ⟨⟨(h.containers r.container).1.faults⟩, rfl⟩
      · rw [World.container_setContainer_of_ne _ hname, World.container_setContainer_of_ne _ hname]
        exact h.containers name

theorem put_of_looks {w v : World} (h : w.Looks v) (p : PlainStore) (key : String)
    (content : Bytes) : (p.put w key content).Looks (p.put v key content) := by
  unfold put
  rw [objects_of_looks h]
  exact setObjects_of_looks h p _

/-- Storing the content of a local file, on the way of either store. -/
def storeFile (p : PlainStore) (key : String) (file : LocalPath) (length : Nat) : Action Unit :=
  match p with
  | memory m => m.storeFile key file
  | remote r => r.storeFile key file length

end PlainStore

namespace RemoteStore

variable (r : RemoteStore) {w : World}

/-- Objects put into the container by a request are put into the store. -/
theorem put_looks {v : World} (h : w.Looks v) {key : String} {content : Bytes} {d : Container}
    (hd : (v.container r.container).Follows d)
    (hobjects : d.objects =
      (v.container r.container).objects.insert (r.pathFor key).text content) :
    ((PlainStore.remote r).put w key content).Looks (v.setContainer r.container d) := by
  refine (PlainStore.put_of_looks h (.remote r) key content).trans ?_
  exact .setContainer ⟨⟨hd.faults⟩, hobjects⟩

/-- An upload in parts that fails has changed nothing, unless a fault carried its end out. -/
theorem uploadParts_spec {key : String} {file : LocalPath} :
    Ensures (r.uploadParts (r.pathFor key) file) w
      (fun _ v => ∃ content, w.read file = .ok content ∧
        ((PlainStore.remote r).put w key content).Looks v)
      fun e v =>
        (w.Looks v ∨ (¬ (w.container r.container).Effectless ∧
          ∃ content, ((PlainStore.remote r).put w key content).Looks v)) ∧
        (¬ (w.container r.container).Quiet ∨
          ∃ cause, w.read file = .error cause ∧ e = .io cause) := by
  unfold uploadParts
  refine Ensures.bind ((r.require_spec (Container.reach_spec _ _ _)).mono (fun _ _ h => h) ?_) ?_
  · rintro e v ⟨d, cause, rfl, ⟨hd, hstruck⟩, -⟩
    exact ⟨.inl (.of_container hd), .inl hstruck.not_quiet⟩
  rintro _ v ⟨d, rfl, hd⟩
  have hlooks := World.Looks.of_container hd
  rw [← hlooks.read file]
  cases hread : (w.setContainer r.container d).read file with
  | ok content =>
    refine Ensures.bind_ok (outcome_ok (fileContent_ok hread)) ?_
    refine (r.require_spec (Container.finishUpload_spec _ _ _)).mono ?_ ?_
    · rintro _ v ⟨e, rfl, hfollows, hobjects⟩
      exact ⟨content, rfl, r.put_looks hlooks hfollows hobjects⟩
    · rintro _ v ⟨e, cause, rfl, ⟨he, hquiet⟩, -⟩
      have hfollows := (hlooks.containers r.container).1
      refine ⟨?_, .inl fun h => hquiet (hfollows.quiet h)⟩
      rcases he with he | ⟨he, heffectless, hobjects⟩
      · exact .inl (hlooks.trans (.of_container he))
      · exact .inr ⟨fun h => heffectless (hfollows.effectless h),
          content, r.put_looks hlooks he hobjects⟩
  | error cause =>
    refine Ensures.bind_ok (outcome_error (fileContent_error hread)) ?_
    have hthrow : ∀ v, w.Looks v → Ensures (throw (.io cause) : Action Unit) v
        (fun _ v => ∃ content, Except.error cause = .ok content ∧
          ((PlainStore.remote r).put w key content).Looks v)
        fun e v =>
          (w.Looks v ∨ (¬ (w.container r.container).Effectless ∧
            ∃ content, ((PlainStore.remote r).put w key content).Looks v)) ∧
          (¬ (w.container r.container).Quiet ∨
            ∃ c, (.error cause : Except IoError Bytes) = .error c ∧ e = .io c) := fun v hv =>
      Ensures.throw ⟨.inl hv, .inr ⟨cause, rfl, rfl⟩⟩
    dsimp only
    split
    · refine Ensures.bind ((r.call_spec (Container.reach_spec _ _ _)).mono (fun _ _ h => h)
        fun _ _ h => h.elim) ?_
      rintro answer v ⟨e, rfl, ⟨-, -, he⟩ | ⟨-, -, he, -⟩⟩
      all_goals exact hthrow _ (hlooks.trans (.of_container he))
    · exact hthrow _ hlooks

/-- A remote store puts the content of a local file where nothing was, or fails and has changed
nothing. -/
theorem storeFile_spec (hw : (w.container r.container).Honest) (key : String) (file : LocalPath)
    (length : Nat) :
    Ensures (r.storeFile key file length) w
      (fun _ v => (((PlainStore.remote r).hold? w key).isSome ∧ w.Looks v) ∨
        ((PlainStore.remote r).hold? w key = none ∧
          ∃ content, w.read file = .ok content ∧ ((PlainStore.remote r).put w key content).Looks v))
      fun e v => w.Looks v ∧ (¬ (w.container r.container).Quiet ∨
        ((PlainStore.remote r).hold? w key = none ∧
          ∃ cause, w.read file = .error cause ∧ e = .io cause)) := by
  unfold storeFile
  refine Ensures.bind ((r.size?_spec key hw).mono (fun _ _ h => h)
    fun e v h => ⟨h.1, .inl h.2⟩) ?_
  rintro size? v ⟨hlooks, rfl⟩
  rw [Option.isSome_map]
  split
  · rename_i hheld
    exact Ensures.pure (.inl ⟨hheld, hlooks⟩)
  rename_i hfree
  rw [Option.not_isSome_iff_eq_none] at hfree
  have hquiet : ∀ {x : Container}, x = v.container r.container → ¬ x.Quiet →
      ¬ (w.container r.container).Quiet := by
    rintro x rfl h hq
    exact h ((hlooks.containers r.container).1.quiet hq)
  dsimp only
  split
  · cases hread : w.read file with
    | error cause =>
      have hv : v.read file = .error cause := (hlooks.read file).trans hread
      exact Ensures.bind_error (fileContent_error hv) ⟨hlooks, .inr ⟨hfree, cause, rfl, rfl⟩⟩
    | ok content =>
      have hv : v.read file = .ok content := (hlooks.read file).trans hread
      refine Ensures.bind_ok (fileContent_ok hv) ?_
      have hhonest := (hlooks.containers r.container).1.honest hw
      refine (r.ensure_spec (Container.create_spec _ _ content)).mono ?_ ?_
      · rintro _ u ⟨d, rfl, ⟨hd, -, hobjects⟩ | ⟨path, -, ⟨hsome, -⟩ | hstruck⟩⟩
        · exact .inr ⟨hfree, content, rfl, r.put_looks hlooks hd hobjects⟩
        · rw [(hlooks.containers r.container).find?] at hsome
          have : (w.container r.container).find? (r.pathFor key) = none := hfree
          rw [this] at hsome
          exact absurd hsome nofun
        · exact absurd rfl (hstruck.ne_alreadyExists hhonest (.inl rfl) path)
      · rintro e u ⟨d, cause, rfl, ⟨hd, ⟨-, rfl⟩ | hstruck⟩, hne, -⟩
        · exact absurd rfl (hne _)
        · exact ⟨hlooks.trans (.of_container (hd.looks hhonest.effectless)),
            .inl (hquiet rfl hstruck.not_quiet)⟩
  · have heffectless := (hlooks.containers r.container).1.effectless hw.effectless
    refine r.uploadParts_spec.mono ?_ ?_
    · rintro _ u ⟨content, hread, hput⟩
      exact .inr ⟨hfree, content, (hlooks.read file) ▸ hread,
        (PlainStore.put_of_looks hlooks (.remote r) key content).trans hput⟩
    · rintro e u ⟨hu, h⟩
      refine ⟨hlooks.trans (hu.resolve_right fun h => h.1 heffectless), ?_⟩
      rcases h with h | ⟨cause, hread, rfl⟩
      · exact .inl (hquiet rfl h)
      · exact .inr ⟨hfree, cause, (hlooks.read file) ▸ hread, rfl⟩

/-- A download puts all of a blob in a writable place; one that fails may leave a part there. -/
theorem readInto_spec (hw : (w.container r.container).Honest) {key : String}
    (hkey : ByteRange.splitKey key = (key, none)) {dest : LocalPath} (hdest : w.Writable dest) :
    Ensures (r.readInto key dest) w
      (fun found v => (found = true ∧ ∃ content, (PlainStore.remote r).hold? w key = some content ∧
          (w.place dest content).Looks v) ∨
        (found = false ∧ (PlainStore.remote r).hold? w key = none ∧ w.Looks v))
      fun _ v => ¬ (w.container r.container).Quiet ∧
        (w.Looks v ∨ ∃ part, (w.place dest part).Looks v) := by
  have hplain : (if r.allowsRange then ByteRange.splitKey key else (key, none)) = (key, none) := by
    rw [hkey, ite_self]
  unfold readInto
  rw [hplain]
  dsimp only
  refine Ensures.bind ((r.find?_spec (Container.fetch_spec _ (r.pathFor key) none)).mono
    (fun _ _ h => h) ?_) ?_
  · rintro e v ⟨d, cause, rfl, ⟨hd, ⟨-, rfl⟩ | hstruck⟩, hne, -⟩
    · exact absurd rfl (hne _)
    · exact ⟨hstruck.not_quiet, .inl (.of_container hd)⟩
  rintro delivery? v ⟨d, rfl, ⟨delivery, rfl, hd, content, hfind, hbytes⟩ | ⟨rfl, path, hd, h⟩⟩
  · have hlooks := World.Looks.of_container hd
    have hput : putFile dest delivery.bytes (w.setContainer r.container d) =
        .ok () ((w.setContainer r.container d).place dest delivery.bytes) :=
      putFile_ok (hlooks.writable hdest) _
    have hplace := hlooks.place dest delivery.bytes
    dsimp only
    unfold save
    rw [bind_assoc]
    refine Ensures.bind_ok hput ?_
    rcases hbytes with ⟨hnone, hall⟩ | ⟨hsome, hquiet⟩
    · rw [hnone]
      refine Ensures.pure (.inl ⟨rfl, content, hfind, ?_⟩)
      rw [hall] at hplace ⊢
      exact hplace
    · obtain ⟨e, he⟩ := Option.ne_none_iff_exists'.1 hsome
      rw [he]
      exact Ensures.bind_error rfl ⟨hquiet, .inr ⟨delivery.bytes, hplace⟩⟩
  · rcases h with ⟨hnone, -⟩ | hstruck
    · exact Ensures.pure (.inr ⟨rfl, hnone, .of_container hd⟩)
    · exact absurd rfl (hstruck.ne_notFound hw (.inr (.inl rfl)) path)

end RemoteStore

end BlobVault
