import BlobVault.Proofs.Store
import BlobVault.Proofs.Upload

/-!
# Operations of stores without a cache

What looking, reading, storing and deleting ensure in a memory store and in a remote store alike, in
terms of what the store holds. A failure of an honest container leaves what is held as it was.

1. `hold?_put_of_ne`, `hold?_drop_of_ne`: distinct accepted keys have distinct addresses, so storing and
   deleting a key concern that key alone.
2. `contains_spec`, `stream_spec`, `readInto_spec`, `storeFile_spec`, `delete_spec`: one law for
   each operation of both stores.
-/

namespace BlobVault

open Std (ExtTreeMap)
open KeyStrategy (Accepted)

namespace PlainStore

variable {p : PlainStore} {w v : World} {key : String}

theorem Honest.of_world (h : w.Honest) (p : PlainStore) : p.Honest w := by
  cases p with
  | memory m => trivial
  | remote r => exact h r.container

theorem Effectless.of_world (h : w.Effectless) (p : PlainStore) : p.Effectless w := by
  cases p with
  | memory m => trivial
  | remote r => exact h r.container

theorem Quiet.of_world (h : w.Quiet) (p : PlainStore) : p.Quiet w := by
  cases p with
  | memory m => trivial
  | remote r => exact h r.container

theorem Quiet.of_follows (h : w.Follows v) {p : PlainStore} (hp : p.Quiet w) : p.Quiet v := by
  cases p with
  | memory m => trivial
  | remote r => exact (h r.container).quiet hp

theorem objects_of_containers {r : RemoteStore} (h : w.containers = ∅) :
    (remote r).objects w = ∅ := by
  have hcontainer : w.container r.container = {} := by
    unfold World.container
    rw [h]
    rfl
  exact congrArg Container.objects hcontainer

/-- Without containers nothing is held. -/
theorem hold?_of_containers {r : RemoteStore} (h : w.containers = ∅) :
    (remote r).hold? w key = none := by
  unfold hold?
  rw [objects_of_containers h]
  exact ExtTreeMap.getElem?_empty

/-! ## Addresses -/

theorem address_inj (hp : p.Closed) {a b : String} (ha : Accepted a) (hb : Accepted b)
    (h : p.address a = p.address b) : a = b := by
  cases p with
  | memory m => exact h
  | remote r =>
    refine Namespace.pathFor_inj hp ha.plainChars hb.plainChars ?_
    exact congrArg ObjectPath.mk h

theorem hold?_put_self (content : Bytes) : p.hold? (p.put w key content) key = some content := by
  unfold hold? put
  rw [objects_setObjects, ExtTreeMap.getElem?_insert_self]

theorem hold?_put_of_ne (hp : p.Closed) {other : String} (hkey : Accepted key)
    (hother : Accepted other) (hne : key ≠ other) (content : Bytes) :
    p.hold? (p.put w key content) other = p.hold? w other := by
  unfold hold? put
  rw [objects_setObjects, getElem?_insert_of_ne fun h => hne (address_inj hp hkey hother h)]

theorem hold?_drop_self : p.hold? (p.drop w key) key = none := by
  unfold hold? drop
  rw [objects_setObjects, ExtTreeMap.getElem?_erase_self]

theorem hold?_drop_of_ne (hp : p.Closed) {other : String} (hkey : Accepted key)
    (hother : Accepted other) (hne : key ≠ other) :
    p.hold? (p.drop w key) other = p.hold? w other := by
  unfold hold? drop
  rw [objects_setObjects, getElem?_erase_of_ne fun h => hne (address_inj hp hkey hother h)]

/-- A deletion, whatever it names, gives nothing to any key. -/
theorem hold?_drop_or (p : PlainStore) (w : World) (key other : String) :
    p.hold? (p.drop w key) other = none ∨ p.hold? (p.drop w key) other = p.hold? w other := by
  unfold hold? drop
  rw [objects_setObjects, ExtTreeMap.getElem?_erase]
  split
  · exact .inl rfl
  · exact .inr rfl

/-! ## Operations -/

theorem contains_spec (hw : p.Honest w) (key : String) :
    Ensures (p.toStore.contains key) w (fun b v => w.Looks v ∧ b = (p.hold? w key).isSome)
      fun _ v => w.Looks v ∧ ¬ p.Quiet w := by
  cases p with
  | memory m => exact Ensures.of_ok rfl ⟨.refl w, rfl⟩
  | remote r =>
    refine Ensures.bind (r.size?_spec key hw) ?_
    rintro size? v ⟨hlooks, rfl⟩
    refine Ensures.pure ⟨hlooks, ?_⟩
    rw [Option.isSome_map]

/-- Opening a blob and reading it to its end. -/
theorem stream_spec (hw : p.Quiet w) (key : String) :
    Ensures (p.toStore.openStream key) w
      (fun stream? v => w.Looks v ∧
        stream? = (p.hold? w key).map fun content => .delivery ⟨content, none⟩)
      NoError := by
  cases p with
  | memory m => exact Ensures.of_ok rfl ⟨.refl w, rfl⟩
  | remote r =>
    refine Ensures.bind ((r.find?_spec (Container.fetch_spec _ (r.pathFor key) none)).mono
      (fun _ _ h => h) ?_) ?_
    · rintro e v ⟨d, cause, rfl, ⟨hd, ⟨-, rfl⟩ | hstruck⟩, hne, -⟩
      · exact absurd rfl (hne _)
      · exact hstruck.not_quiet hw
    rintro delivery? v ⟨d, rfl, ⟨delivery, rfl, hd, content, hfind, hbytes⟩ | ⟨rfl, path, hd, h⟩⟩
    · refine Ensures.pure ⟨.of_container hd, ?_⟩
      have hhold : (remote r).hold? w key = some content := hfind
      rcases hbytes with ⟨hnone, hall⟩ | ⟨-, hquiet⟩
      · rw [hhold, show delivery = ⟨content, none⟩ by rw [← hnone, ← show _ = content from hall]]
        rfl
      · exact absurd hw hquiet
    · refine Ensures.pure ⟨.of_container hd, ?_⟩
      rcases h with ⟨hnone, -⟩ | hstruck
      · have hhold : (remote r).hold? w key = none := hnone
        rw [hhold]
        rfl
      · exact absurd hw hstruck.not_quiet

theorem readInto_spec (hw : p.Honest w) (hkey : ByteRange.splitKey key = (key, none))
    {dest : LocalPath} (hdest : w.Writable dest) :
    Ensures (p.toStore.readInto key dest) w
      (fun found v => (found = true ∧ ∃ content, p.hold? w key = some content ∧
          (w.place dest content).Looks v) ∨
        (found = false ∧ p.hold? w key = none ∧ w.Looks v))
      fun _ v => ¬ p.Quiet w ∧ (w.Looks v ∨ ∃ part, (w.place dest part).Looks v) := by
  cases p with
  | remote r => exact r.readInto_spec hw hkey hdest
  | memory m =>
    have hplain : (if m.allowsRange then ByteRange.splitKey key else (key, none)) =
        (key, none) := by
      rw [hkey, ite_self]
    have hlookup : m.lookup key w = .ok ((memory m).hold? w key) w := by
      have hfind : m.find? key w = .ok ((memory m).hold? w key) w := rfl
      unfold MemoryStore.lookup
      rw [hplain]
      simp only [bind, EStateM.bind, hfind]
      cases (memory m).hold? w key <;> rfl
    refine Ensures.bind_ok hlookup ?_
    cases hhold : (memory m).hold? w key with
    | none => exact Ensures.pure (.inr ⟨rfl, rfl, .refl w⟩)
    | some content =>
      exact Ensures.bind_ok (putFile_ok hdest content)
        (Ensures.pure (.inl ⟨rfl, content, rfl, .refl _⟩))

theorem storeFile_spec (hw : p.Honest w) (key : String) (file : LocalPath) (length : Nat) :
    Ensures (p.storeFile key file length) w
      (fun _ v => ((p.hold? w key).isSome ∧ w.Looks v) ∨
        (p.hold? w key = none ∧ ∃ content, w.read file = .ok content ∧
          (p.put w key content).Looks v))
      fun e v => w.Looks v ∧ (¬ p.Quiet w ∨
        (p.hold? w key = none ∧ ∃ cause, w.read file = .error cause ∧ e = .io cause)) := by
  cases p with
  | remote r => exact r.storeFile_spec hw key file length
  | memory m =>
    have hfind : m.find? key w = .ok ((memory m).hold? w key) w := rfl
    refine Ensures.bind_ok hfind ?_
    cases hhold : (memory m).hold? w key with
    | some content => exact Ensures.pure (.inl ⟨rfl, .refl w⟩)
    | none =>
      cases hread : w.read file with
      | error cause =>
        exact Ensures.bind_error (fileContent_error hread) ⟨.refl w, .inr ⟨rfl, cause, rfl, rfl⟩⟩
      | ok content =>
        exact Ensures.bind_ok (fileContent_ok hread)
          (Ensures.modify (.inr ⟨rfl, content, rfl, .refl _⟩))

theorem delete_spec (p : PlainStore) (w : World) (key : String) :
    Ensures (p.toStore.delete key) w
      (fun _ v => (p.drop w key).Looks v ∨ (w.Looks v ∧ ¬ p.Quiet w)) NoError := by
  cases p with
  | memory m => exact Ensures.modify (.inl (.refl _))
  | remote r => exact Ensures.modify (r.erase_spec key w)

/-- The directory of a store for temporary files. -/
def tempDir : PlainStore → TempDir
  | .memory m => m.tempDir
  | .remote r => r.tempDir

/-- A write passes through a local file. -/
theorem write_eq (p : PlainStore) (r : WriteRequest) :
    p.toStore.write r = r.withLocal p.tempDir fun content => do
      p.storeFile content.key content.path content.length
      return content.key := by
  cases p with
  | memory m => exact r.localize_bind_close m.tempDir _
  | remote s => exact r.localize_bind_close s.tempDir _

/-- Holding other objects is no concern of local files and caches. -/
theorem setObjects_rest (p : PlainStore) (w : World) (blobs : Blobs) :
    p.setObjects w blobs = { w with
      containers := (p.setObjects w blobs).containers
      memories := (p.setObjects w blobs).memories } := by
  cases p <;> rfl

/-! ## Writing once -/

/-- The world after a store was given content for a key: what it held before stays. -/
def accept (p : PlainStore) (w : World) (key : String) (content : Bytes) : World :=
  if (p.hold? w key).isSome then w else p.put w key content

theorem accept_of_held (h : (p.hold? w key).isSome) (content : Bytes) :
    p.accept w key content = w := if_pos h

theorem accept_of_free (h : p.hold? w key = none) (content : Bytes) :
    p.accept w key content = p.put w key content := by
  unfold accept
  rw [h]
  exact if_neg nofun

theorem accept_rest (p : PlainStore) (w : World) (key : String) (content : Bytes) :
    p.accept w key content = { w with
      containers := (p.accept w key content).containers
      memories := (p.accept w key content).memories } := by
  unfold accept
  split
  · rfl
  · exact setObjects_rest p w _

theorem hold?_accept_self (content : Bytes) :
    p.hold? (p.accept w key content) key = some ((p.hold? w key).getD content) := by
  cases h : p.hold? w key with
  | some held =>
    rw [accept_of_held (by rw [h]; rfl), h]
    rfl
  | none =>
    rw [accept_of_free h, hold?_put_self]
    rfl

theorem hold?_accept_of_ne (hp : p.Closed) {other : String} (hkey : Accepted key)
    (hother : Accepted other) (hne : key ≠ other) (content : Bytes) :
    p.hold? (p.accept w key content) other = p.hold? w other := by
  unfold accept
  split
  · rfl
  · exact hold?_put_of_ne hp hkey hother hne content

/-- Nothing that is held goes when content is accepted. -/
theorem hold?_accept_of_held (hp : p.Closed) {other : String} (hkey : Accepted key)
    (hother : Accepted other) {held : Bytes} (h : p.hold? w other = some held) (content : Bytes) :
    p.hold? (p.accept w key content) other = some held := by
  by_cases hne : key = other
  · subst hne
    rw [hold?_accept_self, h]
    rfl
  · rw [hold?_accept_of_ne hp hkey hother hne, h]

theorem accept_of_looks (h : w.Looks v) (p : PlainStore) (key : String) (content : Bytes) :
    (p.accept w key content).Looks (p.accept v key content) := by
  unfold accept
  rw [hold?_of_looks h]
  split
  · exact h
  · exact put_of_looks h p key content

/-- A temporary file is no concern of a store. -/
theorem objects_putTemp (p : PlainStore) (w : World) (dir : TempDir) (serial : Nat)
    (content : Bytes) : p.objects (w.putTemp dir serial content) = p.objects w := by
  cases p with
  | memory m => exact World.memory_putTemp w content m.memory
  | remote r => exact congrArg Container.objects (World.container_putTemp w content r.container)

theorem hold?_putTemp (p : PlainStore) (w : World) (dir : TempDir) (serial : Nat)
    (content : Bytes) (key : String) :
    p.hold? (w.putTemp dir serial content) key = p.hold? w key := by
  unfold hold?
  rw [objects_putTemp]

theorem Honest.putTemp (h : p.Honest w) (dir : TempDir) (serial : Nat) (content : Bytes) :
    p.Honest (w.putTemp dir serial content) := by
  cases p with
  | memory m => trivial
  | remote r =>
    show ((w.putTemp _ _ _).container _).Honest
    rw [World.container_putTemp]
    exact h

theorem quiet_putTemp (p : PlainStore) (w : World) (dir : TempDir) (serial : Nat)
    (content : Bytes) : p.Quiet (w.putTemp dir serial content) ↔ p.Quiet w := by
  cases p with
  | memory m => exact Iff.rfl
  | remote r =>
    show ((w.putTemp _ _ _).container _).Quiet ↔ (w.container _).Quiet
    rw [World.container_putTemp]

theorem setObjects_putTemp (p : PlainStore) (w : World) (dir : TempDir) (serial : Nat)
    (content : Bytes) (blobs : Blobs) :
    p.setObjects (w.putTemp dir serial content) blobs =
      (p.setObjects w blobs).putTemp dir serial content := by
  cases p with
  | memory m => exact World.setMemory_putTemp w content m.memory blobs
  | remote r =>
    show (w.putTemp dir serial content).setContainer _ { (w.putTemp _ _ _).container _ with
      objects := blobs } = _
    rw [World.container_putTemp]
    exact World.setContainer_putTemp w content r.container _

theorem accept_putTemp (p : PlainStore) (w : World) (dir : TempDir) (serial : Nat)
    (part : Bytes) (key : String) (content : Bytes) :
    p.accept (w.putTemp dir serial part) key content =
      (p.accept w key content).putTemp dir serial part := by
  unfold accept put
  rw [hold?_putTemp, objects_putTemp, setObjects_putTemp]
  split <;> rfl

theorem temps?_accept (p : PlainStore) (w : World) (key : String) (content : Bytes)
    (dir : TempDir) : (p.accept w key content).temps? dir = w.temps? dir := by
  rw [accept_rest]
  rfl

theorem read_accept (p : PlainStore) (w : World) (key : String) (content : Bytes)
    (path : LocalPath) : (p.accept w key content).read path = w.read path := by
  rw [accept_rest]
  rfl

theorem isReadOnly_accept (p : PlainStore) (w : World) (key : String) (content : Bytes)
    (path : LocalPath) : (p.accept w key content).isReadOnly path = w.isReadOnly path := by
  rw [accept_rest]
  rfl

/-- Storing a local file whose content is known. -/
theorem storeFile_content_spec (hw : p.Honest w) {file : LocalPath} {content : Bytes}
    (hread : w.read file = .ok content) (length : Nat) :
    Ensures (p.storeFile key file length) w (fun _ v => (p.accept w key content).Looks v)
      fun _ v => w.Looks v ∧ ¬ p.Quiet w := by
  refine (p.storeFile_spec hw key file length).mono ?_ ?_
  · rintro _ v (⟨hheld, hv⟩ | ⟨hfree, content', hread', hv⟩)
    · rwa [accept_of_held hheld]
    · rw [hread] at hread'
      obtain rfl := Except.ok.inj hread'
      rwa [accept_of_free hfree]
  · rintro e v ⟨hv, hquiet | ⟨-, cause, hcause, -⟩⟩
    · exact ⟨hv, hquiet⟩
    · rw [hread] at hcause
      exact absurd hcause nofun

/-- A write carries out its plan. A directory in place of a file passes only where its content is
not needed. -/
theorem write_spec (hw : p.Honest w) {r : WriteRequest}
    (htemp : ∀ chunks, r.source = .stream chunks → ∃ files, w.temps? p.tempDir = some files) :
    Ensures (p.toStore.write r) w
      (fun key v => (∃ content, r.plan w = .ok (key, .ok content) ∧
          (p.accept w key content).Looks v) ∨
        (∃ cause, r.plan w = .ok (key, .error cause) ∧ (p.hold? w key).isSome ∧ w.Looks v))
      fun e v => w.Looks v ∧ (r.plan w = .error e ∨ ¬ p.Quiet w ∨
        ∃ key cause, r.plan w = .ok (key, .error cause) ∧ e = .io cause ∧
          p.hold? w key = none) := by
  rw [write_eq]
  cases hsource : r.source with
  | stream chunks =>
    obtain ⟨files, hfiles⟩ := htemp chunks hsource
    refine WriteRequest.withLocal_stream_spec hsource hfiles
      (fun e he => ⟨.refl w, .inl he⟩) fun key content serial hplan hfree => ?_
    have hread : (w.putTemp p.tempDir serial content).read (.temp p.tempDir serial) = .ok content :=
      World.read_putTemp hfiles content
    refine Ensures.bind ((storeFile_content_spec (hw.putTemp _ _ _) hread _).mono
      (fun _ _ h => h) ?_) ?_
    · rintro e v ⟨hv, hquiet⟩
      obtain ⟨u, rfl, hu⟩ := World.exists_of_putTemp_looks hv
      rw [quiet_putTemp] at hquiet
      refine ⟨?_, .inr (.inl hquiet)⟩
      rwa [World.dropTemp_putTemp ((hu.temps? _).trans hfiles) hfree]
    · intro _ v hv
      rw [accept_putTemp] at hv
      obtain ⟨u, rfl, hu⟩ := World.exists_of_putTemp_looks hv
      have hfiles' : u.temps? p.tempDir = some files := by
        rw [hu.temps?, temps?_accept, hfiles]
      refine Ensures.pure (.inl ⟨content, hplan, ?_⟩)
      rwa [World.dropTemp_putTemp hfiles' hfree]
  | file path =>
    refine WriteRequest.withLocal_file_spec hsource
      (fun e he => ⟨.refl w, .inl he⟩) fun key content length hplan hread => ?_
    cases content with
    | ok content =>
      refine Ensures.bind ((storeFile_content_spec hw hread length).mono (fun _ _ h => h)
        fun _ v h => ⟨h.1, .inr (.inl h.2)⟩) ?_
      exact fun _ v hv => Ensures.pure (.inl ⟨content, hplan, hv⟩)
    | error cause =>
      refine Ensures.bind ((p.storeFile_spec hw key path length).mono (fun _ _ h => h) ?_) ?_
      · rintro e v ⟨hv, hquiet | ⟨hfree, cause', hcause, rfl⟩⟩
        · exact ⟨hv, .inr (.inl hquiet)⟩
        · rw [hread] at hcause
          obtain rfl := Except.error.inj hcause
          exact ⟨hv, .inr (.inr ⟨key, cause, hplan, rfl, hfree⟩)⟩
      · rintro _ v (⟨hheld, hv⟩ | ⟨-, content, hcontent, -⟩)
        · exact Ensures.pure (.inr ⟨cause, hplan, hheld, hv⟩)
        · rw [hread] at hcontent
          exact absurd hcontent nofun

/-- Without faults a write of content goes through. -/
theorem write_ok (hw : p.Quiet w) {r : WriteRequest}
    (htemp : ∃ files, w.temps? p.tempDir = some files) {content : Bytes}
    (hplan : r.plan w = .ok (key, .ok content)) :
    ∃ v, p.toStore.write r w = .ok key v ∧ (p.accept w key content).Looks v := by
  have hspec : Ensures (p.toStore.write r) w
      (fun k v => k = key ∧ (p.accept w key content).Looks v) NoError := by
    refine (write_spec hw.honest fun _ _ => htemp).mono ?_ ?_
    · rintro k v (⟨bytes, hk, hv⟩ | ⟨cause, hk, -⟩)
      · rw [hplan] at hk
        obtain ⟨rfl, heq⟩ := Prod.mk.inj (Except.ok.inj hk)
        obtain rfl := Except.ok.inj heq
        exact ⟨rfl, hv⟩
      · rw [hplan] at hk
        exact absurd (Prod.mk.inj (Except.ok.inj hk)).2 nofun
    · rintro e v ⟨-, he | hquiet | ⟨k, cause, hk, -⟩⟩
      · rw [hplan] at he
        exact nomatch he
      · exact hquiet hw
      · rw [hplan] at hk
        exact absurd (Prod.mk.inj (Except.ok.inj hk)).2 nofun
  obtain ⟨k, v, hrun, rfl, hv⟩ := hspec.exists_ok
  exact ⟨v, hrun, hv⟩

/-- Without faults a write fails as it is planned to, and stores nothing. -/
theorem write_error (hw : p.Quiet w) {r : WriteRequest}
    (htemp : ∃ files, w.temps? p.tempDir = some files) {e : BlobError}
    (hplan : r.plan w = .error e) : ∃ v, p.toStore.write r w = .error e v ∧ w.Looks v := by
  have hspec := write_spec hw.honest (r := r) fun _ _ => htemp
  rw [hplan] at hspec
  cases hrun : p.toStore.write r w with
  | ok k v =>
    rcases hspec.ok_of_eq hrun with ⟨_, h, -⟩ | ⟨_, h, -⟩ <;> exact absurd h nofun
  | error e' v =>
    obtain ⟨hlooks, h | hquiet | ⟨_, _, h, -⟩⟩ := hspec.error_of_eq hrun
    · obtain rfl := Except.error.inj h
      exact ⟨v, rfl, hlooks⟩
    · exact absurd hw hquiet
    · exact absurd h nofun

/-- Writing a local file whose content is known, or a directory, under a given key. -/
theorem write_file_spec (hw : p.Honest w) (key : String) {file : LocalPath}
    {content : Except IoError Bytes} (hread : w.read file = content)
    (hcontent : ∀ cause, content = .error cause → cause = .isADirectory) :
    Ensures (p.toStore.write { source := .file file, key? := some key }) w
      (fun k v => k = key ∧ ((∃ bytes, content = .ok bytes ∧ (p.accept w key bytes).Looks v) ∨
        (∃ cause, content = .error cause ∧ (p.hold? w key).isSome ∧ w.Looks v)))
      fun e v => w.Looks v ∧ (¬ p.Quiet w ∨
        ∃ cause, content = .error cause ∧ e = .io cause ∧ p.hold? w key = none) := by
  have hplan : ({ source := .file file, key? := some key } : WriteRequest).plan w =
      .ok (key, content) := by
    unfold WriteRequest.plan
    dsimp only
    rw [hread]
    cases content with
    | ok bytes => rfl
    | error cause =>
      obtain rfl := hcontent cause rfl
      rfl
  refine (write_spec hw fun chunks h =>
    absurd (show ContentSource.file file = .stream chunks from h) nofun).mono ?_ ?_
  · rintro k v (⟨bytes, hk, hv⟩ | ⟨cause, hk, hheld, hv⟩)
    · rw [hplan] at hk
      obtain ⟨rfl, rfl⟩ := Prod.mk.inj (Except.ok.inj hk)
      exact ⟨rfl, .inl ⟨bytes, rfl, hv⟩⟩
    · rw [hplan] at hk
      obtain ⟨rfl, rfl⟩ := Prod.mk.inj (Except.ok.inj hk)
      exact ⟨rfl, .inr ⟨cause, rfl, hheld, hv⟩⟩
  · rintro e v ⟨hv, he | hquiet | ⟨k, cause, hk, he, hfree⟩⟩
    · rw [hplan] at he
      exact absurd he nofun
    · exact ⟨hv, .inl hquiet⟩
    · rw [hplan] at hk
      obtain ⟨rfl, rfl⟩ := Prod.mk.inj (Except.ok.inj hk)
      exact ⟨hv, .inr ⟨cause, rfl, he, hfree⟩⟩

/-! ## Clearing -/

theorem shares_setObjects (p : PlainStore) (w : World) (blobs : Blobs) :
    w.Shares (p.setObjects w blobs) := by
  refine ⟨setObjects_rest p w blobs, ?_⟩
  cases p with
  | memory m => exact fun _ => .refl _
  | remote r => exact .setContainer (.of_faults_eq rfl)

theorem follows_accept (p : PlainStore) (w : World) (key : String) (content : Bytes) :
    w.Follows (p.accept w key content) := by
  unfold accept
  split
  · exact .refl w
  · exact (p.shares_setObjects w _).follows

theorem follows_drop (p : PlainStore) (w : World) (key : String) : w.Follows (p.drop w key) :=
  (p.shares_setObjects w _).follows

theorem shares_erase (r : RemoteStore) (key : String) (w : World) : w.Shares (r.erase key w) := by
  rcases r.erase_spec key w with h | ⟨h, -⟩
  · exact (shares_setObjects (remote r) w _).trans (.of_looks h)
  · exact .of_looks h

/-- Clearing a store concerns containers and memories alone. -/
theorem clear_spec (p : PlainStore) (w : World) :
    Ensures p.toStore.clear w (fun _ v => w.Shares v) fun _ v => w.Shares v := by
  cases p with
  | memory m => exact Ensures.modify (shares_setObjects (memory m) w ∅)
  | remote r =>
    have hlist : w.Shares (r.list w).2 :=
      .of_looks (.of_container (Container.list_spec _ r.space.top?).1)
    have hfold : ∀ (blobs : List ListedBlob) (u : World), w.Shares u →
        w.Shares (blobs.foldl (fun u blob => r.erase blob.key u) u) := by
      intro blobs
      induction blobs with
      | nil => exact fun u hu => hu
      | cons blob blobs ih => exact fun u hu => ih _ (hu.trans (shares_erase r blob.key u))
    have hdone := hfold ((Pager.ofListing (r.list w).1 defaultPageSize).readAll.1.flatten) _ hlist
    show Ensures r.clear w _ _
    unfold Ensures RemoteStore.clear
    dsimp only
    cases (Pager.ofListing (r.list w).1 defaultPageSize).readAll.2 <;> exact hdone

end PlainStore

/-- What a cache in front of a store gives away. -/
theorem Store.localFile_caching (name : String) (cache : FileCache) (inner : Store) (key : String) :
    Store.localFile (.caching name cache inner) key =
      if ByteRange.isAnnotated key then pure .unknown
      else do
        match ← cache.fetch key (inner.readInto key) with
        | some path => return .found path
        | none => return .missing := by
  show (if ByteRange.isAnnotated key then _ else _) = _
  split <;> rfl

end BlobVault
