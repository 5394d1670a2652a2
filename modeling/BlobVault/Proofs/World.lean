import BlobVault.World
import BlobVault.Proofs.Container

/-!
# Steps of the world

The small laws of the world's parts, and what the actions on local files ensure.

1. `World.Looks`: a world and what it becomes by requests that change no object.
2. `World.read`: the content of a local file as a function of the world.
3. `World.putTemp`: a temporary file that is made, filled and dropped leaves nothing behind, so an
   action run by `withTemp` is as good as one on the world with one file more (`withTemp_spec`).
4. `TempGuard.hold_bind_close`, `TempGuard.persist_bind_eq_close`: what an owner does step by step
   is what it does all at once.
-/

namespace BlobVault

open Std (ExtTreeMap)

/-! ## Maps -/

section

variable {α β : Type} {cmp : α → α → Ordering} [Std.TransCmp cmp] [Std.LawfulEqCmp cmp]
  {m : ExtTreeMap α β cmp} {k a : α} {v : β}

/-- What is put in one place is found in no other. -/
theorem getElem?_insert_of_ne (h : k ≠ a) : (m.insert k v)[a]? = m[a]? := by
  rw [ExtTreeMap.getElem?_insert, if_neg fun hcmp => h (Std.LawfulEqCmp.eq_of_compare hcmp)]

/-- What is taken out of one place is missing in no other. -/
theorem getElem?_erase_of_ne (h : k ≠ a) : (m.erase k)[a]? = m[a]? := by
  rw [ExtTreeMap.getElem?_erase, if_neg fun hcmp => h (Std.LawfulEqCmp.eq_of_compare hcmp)]

/-- Putting in place what is there already changes nothing. -/
theorem insert_of_getElem? (h : m[k]? = some v) : m.insert k v = m := by
  refine ExtTreeMap.ext_getElem? fun a => ?_
  by_cases hne : k = a
  · rw [← hne, ExtTreeMap.getElem?_insert_self, h]
  · exact getElem?_insert_of_ne hne

/-- Of two contents put in one place, the second stays. -/
theorem insert_insert (m : ExtTreeMap α β cmp) (k : α) (u v : β) :
    (m.insert k u).insert k v = m.insert k v := by
  refine ExtTreeMap.ext_getElem? fun a => ?_
  simp only [ExtTreeMap.getElem?_insert]
  split <;> rfl

/-- Taking something out of a place where nothing is changes nothing. -/
theorem erase_of_getElem? (h : m[k]? = none) : m.erase k = m := by
  refine ExtTreeMap.ext_getElem? fun a => ?_
  by_cases hne : k = a
  · rw [← hne, ExtTreeMap.getElem?_erase_self, h]
  · exact getElem?_erase_of_ne hne

/-- Taking out what was just put into a free place changes nothing. -/
theorem erase_insert_of_getElem? (h : m[k]? = none) (v : β) : (m.insert k v).erase k = m := by
  refine ExtTreeMap.ext_getElem? fun a => ?_
  by_cases hne : k = a
  · rw [← hne, ExtTreeMap.getElem?_erase_self, h]
  · rw [getElem?_erase_of_ne hne, getElem?_insert_of_ne hne]

/-- Putting back what was taken out changes nothing. -/
theorem insert_erase_of_getElem? (h : m[k]? = some v) : (m.erase k).insert k v = m := by
  refine ExtTreeMap.ext_getElem? fun a => ?_
  by_cases hne : k = a
  · rw [← hne, ExtTreeMap.getElem?_insert_self, h]
  · rw [getElem?_insert_of_ne hne, getElem?_erase_of_ne hne]

end

namespace World

/-! ## Containers and memories -/

@[simp] theorem container_setContainer_self (w : World) (name : String) (c : Container) :
    (w.setContainer name c).container name = c := ExtTreeMap.getD_insert_self

theorem container_setContainer_of_ne (w : World) {name other : String} (h : name ≠ other)
    (c : Container) : (w.setContainer name c).container other = w.container other := by
  unfold container setContainer
  rw [ExtTreeMap.getD_insert, if_neg]
  rwa [Std.LawfulEqCmp.compare_eq_iff_eq]

@[simp] theorem memory_setMemory_self (w : World) (name : String) (blobs : Blobs) :
    (w.setMemory name blobs).memory name = blobs := ExtTreeMap.getD_insert_self

theorem memory_setMemory_of_ne (w : World) {name other : String} (h : name ≠ other)
    (blobs : Blobs) : (w.setMemory name blobs).memory other = w.memory other := by
  unfold memory setMemory
  rw [ExtTreeMap.getD_insert, if_neg]
  rwa [Std.LawfulEqCmp.compare_eq_iff_eq]

/-- No container of the world has a fault in front of it. -/
def Quiet (w : World) : Prop := ∀ name, (w.container name).Quiet

/-- All faults of the world are honest. -/
def Honest (w : World) : Prop := ∀ name, (w.container name).Honest

theorem Quiet.honest {w : World} (h : w.Quiet) : w.Honest := fun name => (h name).honest

/-- No fault of the world carries out what it strikes. -/
def Effectless (w : World) : Prop := ∀ name, (w.container name).Effectless

theorem quiet_of_containers {w : World} (h : w.containers = ∅) : w.Quiet := by
  intro name
  unfold World.container
  rw [h, ExtTreeMap.getD_empty]
  rfl

theorem Quiet.setContainer {w : World} (h : w.Quiet) {c : Container} (hc : c.Quiet)
    (name : String) : (w.setContainer name c).Quiet := by
  intro other
  by_cases hname : name = other
  · rw [← hname, container_setContainer_self]
    exact hc
  · rw [container_setContainer_of_ne _ hname]
    exact h other

/-- In a world with one container, what holds of that one and of an empty one holds of all. -/
theorem forall_container {w : World} {name : String} {c : Container} {P : Container → Prop}
    (h : w.containers = ExtTreeMap.insert ∅ name c) (hc : P c) (hempty : P {}) (other : String) :
    P (w.container other) := by
  unfold World.container
  rw [h, ExtTreeMap.getD_insert]
  split
  · exact hc
  · rwa [ExtTreeMap.getD_empty]

/-- A world with one container is quiet if the container is. -/
theorem quiet_of_container {w : World} {name : String} {c : Container}
    (h : w.containers = ExtTreeMap.insert ∅ name c) (hc : c.Quiet) : w.Quiet :=
  forall_container h hc rfl

theorem setContainer_self {w : World} {name : String} {c : Container}
    (h : w.containers[name]? = some c) : w.setContainer name c = w := by
  unfold setContainer
  rw [insert_of_getElem? h]

/-- The faults of the second world are those of the first one, some of them counted down. -/
def Follows (w v : World) : Prop := ∀ name, (w.container name).Follows (v.container name)

namespace Follows

variable {w v u : World}

theorem refl (w : World) : w.Follows w := fun _ => .refl _

theorem trans (h : w.Follows v) (h' : v.Follows u) : w.Follows u := fun name =>
  (h name).trans (h' name)

/-- What becomes of one container becomes of the world. -/
theorem setContainer {name : String} {d : Container} (h : (w.container name).Follows d) :
    w.Follows (w.setContainer name d) := by
  intro other
  by_cases hname : name = other
  · rw [← hname, container_setContainer_self]
    exact h
  · rw [container_setContainer_of_ne _ hname]
    exact .refl _

theorem honest (h : w.Follows v) (hw : w.Honest) : v.Honest := fun name =>
  (h name).honest (hw name)

theorem effectless (h : w.Follows v) (hw : w.Effectless) : v.Effectless := fun name =>
  (h name).effectless (hw name)

theorem quiet (h : w.Follows v) (hw : w.Quiet) : v.Quiet := fun name =>
  (h name).quiet (hw name)

end Follows

/-- The second world is what requests that change no object make of the first one. -/
structure Looks (w v : World) : Prop where
  rest : v = { w with containers := v.containers }
  containers : ∀ name, (w.container name).Looks (v.container name)

namespace Looks

variable {w v u : World}

theorem refl (w : World) : w.Looks w := ⟨rfl, fun _ => ⟨.refl _, rfl⟩⟩

theorem trans (h : w.Looks v) (h' : v.Looks u) : w.Looks u := by
  refine ⟨?_, fun name => (h.containers name).trans (h'.containers name)⟩
  rw [h'.rest, h.rest]

theorem objects (h : w.Looks v) (name : String) :
    (v.container name).objects = (w.container name).objects := (h.containers name).2

theorem follows (h : w.Looks v) : w.Follows v := fun name => (h.containers name).1

/-- What becomes of one container by looking is what becomes of the world. -/
theorem setContainer {name : String} {c d : Container} (h : c.Looks d) :
    (w.setContainer name c).Looks (w.setContainer name d) := by
  refine ⟨rfl, fun other => ?_⟩
  by_cases hname : name = other
  · rw [← hname, container_setContainer_self, container_setContainer_self]
    exact h
  · rw [container_setContainer_of_ne _ hname, container_setContainer_of_ne _ hname]
    exact ⟨.refl _, rfl⟩

theorem of_container {name : String} {d : Container} (h : (w.container name).Looks d) :
    w.Looks (w.setContainer name d) := by
  refine ⟨rfl, fun other => ?_⟩
  by_cases hname : name = other
  · rw [← hname, container_setContainer_self]
    exact h
  · rw [container_setContainer_of_ne _ hname]
    exact ⟨.refl _, rfl⟩

end Looks

/-- The second world is the first one with other contents of containers and memories, and with the
faults counted on. -/
structure Shares (w v : World) : Prop where
  rest : v = { w with containers := v.containers, memories := v.memories }
  follows : w.Follows v

namespace Shares

variable {w v u : World}

theorem trans (h : w.Shares v) (h' : v.Shares u) : w.Shares u := by
  refine ⟨?_, h.follows.trans h'.follows⟩
  rw [h'.rest, h.rest]

theorem of_looks (h : w.Looks v) : w.Shares v := by
  refine ⟨?_, h.follows⟩
  rw [h.rest]

end Shares

/-! ## Local files -/

/-- The content of a local file. -/
def read (w : World) : LocalPath → Except IoError Bytes
  | .caller name =>
    match w.files[name]? with
    | some (.file content _) => .ok content
    | some .directory => .error .isADirectory
    | none => .error .notFound
  | .detached => .error .notFound
  | .temp dir serial =>
    match (w.temps? dir).bind (·[serial]?) with
    | some file => .ok file.content
    | none => .error .notFound
  | .entry dir name =>
    match w.caches[dir]?.bind (·.entries[name]?) with
    | some (.file content _ _) => .ok content
    | some .directory => .error .isADirectory
    | none => .error .notFound

theorem Looks.read {w v : World} (h : w.Looks v) (path : LocalPath) :
    v.read path = w.read path := by
  rw [h.rest]
  rfl

theorem Looks.isReadOnly {w v : World} (h : w.Looks v) (path : LocalPath) :
    v.isReadOnly path = w.isReadOnly path := by
  rw [h.rest]
  rfl

theorem Looks.temps? {w v : World} (h : w.Looks v) (dir : TempDir) :
    v.temps? dir = w.temps? dir := by
  rw [h.rest]
  rfl

end World

/-- Reading a local file gives its content or fails, and changes nothing. -/
theorem fileContent_eq (path : LocalPath) (w : World) :
    fileContent path w =
      match w.read path with
      | .ok content => .ok content w
      | .error e => .error (.io e) w := by
  unfold fileContent World.read
  rw [run_get_bind]
  cases path with
  | caller name =>
    dsimp only
    cases w.files[name]? with
    | none => rfl
    | some node => cases node <;> rfl
  | detached => rfl
  | temp dir serial =>
    dsimp only
    cases (w.temps? dir).bind (·[serial]?) <;> rfl
  | entry dir name =>
    dsimp only
    cases w.caches[dir]?.bind (·.entries[name]?) with
    | none => rfl
    | some node => cases node <;> rfl

theorem fileContent_ok {w : World} {path : LocalPath} {content : Bytes}
    (h : w.read path = .ok content) : fileContent path w = .ok content w := by
  rw [fileContent_eq, h]

theorem fileContent_error {w : World} {path : LocalPath} {e : IoError}
    (h : w.read path = .error e) : fileContent path w = .error (.io e) w := by
  rw [fileContent_eq, h]

theorem fileSize_ok {w : World} {path : LocalPath} {content : Bytes}
    (h : w.read path = .ok content) : fileSize path w = .ok content.length w := by
  unfold fileSize
  rw [fileContent_ok h]

theorem fileSize_directory {w : World} {path : LocalPath} (h : w.read path = .error .isADirectory) :
    fileSize path w = .ok directorySize w := by
  unfold fileSize
  rw [fileContent_error h]

theorem fileSize_error {w : World} {path : LocalPath} {e : IoError} (h : w.read path = .error e)
    (hne : e ≠ .isADirectory) : fileSize path w = .error (.io e) w := by
  unfold fileSize
  rw [fileContent_error h]
  cases e <;> first | rfl | exact absurd rfl hne

theorem outcome_ok {α : Type} {x : Action α} {w v : World} {a : α} (h : x w = .ok a v) :
    outcome x w = .ok (.ok a) v := by
  unfold outcome
  rw [h]

theorem outcome_error {α : Type} {x : Action α} {w v : World} {e : BlobError}
    (h : x w = .error e v) : outcome x w = .ok (.error e) v := by
  unfold outcome
  rw [h]

theorem attempt_ok {α : Type} {x : Action α} {w v : World} {a : α} (h : x w = .ok a v) :
    attempt (do let _ ← x) w = .ok () v := by
  unfold attempt
  rw [run_bind_ok h]
  rfl

theorem attempt_error {α : Type} {x : Action α} {w v : World} {e : BlobError}
    (h : x w = .error e v) : attempt (do let _ ← x) w = .ok () v := by
  unfold attempt
  rw [run_bind_error h]

/-- An action whose failure does not count, and which leaves the same in whatever way it ends. -/
theorem Ensures.attempt {α : Type} {x : Action α} {w : World} {P : World → Prop}
    {E : BlobError → World → Prop} (h : Ensures x w (fun _ v => P v) fun _ v => P v) :
    Ensures (BlobVault.attempt (do let _ ← x)) w (fun _ v => P v) E := by
  cases hrun : x w with
  | ok a v => exact of_ok (attempt_ok hrun) (h.ok_of_eq hrun)
  | error e v => exact of_ok (attempt_error hrun) (h.error_of_eq hrun)

/-- An action whose failure does not count is one whose outcome is not looked at. -/
theorem attempt_eq_outcome {α β : Type} (x : Action α) (b : β) :
    (do attempt (do let _ ← x); return b : Action β) = do let _ ← outcome x; return b := by
  funext w
  cases hrun : x w with
  | ok a v => rw [run_bind_ok (attempt_ok hrun), run_bind_ok (outcome_ok hrun)]
  | error e v => rw [run_bind_ok (attempt_error hrun), run_bind_ok (outcome_error hrun)]

/-! ## Temporary files -/

theorem TempFiles.getElem?_fresh (files : TempFiles) : files[fresh files]? = none := by
  unfold fresh
  cases h : files.maxKey? with
  | none =>
    rw [ExtTreeMap.maxKey?_eq_none_iff.1 h]
    exact ExtTreeMap.getElem?_empty
  | some n =>
    refine ExtTreeMap.getElem?_eq_none fun hmem => ?_
    have hle := (ExtTreeMap.maxKey?_eq_some_iff_mem_and_forall.1 h).2 (n + 1) hmem
    rw [Nat.isLE_compare] at hle
    omega

namespace World

variable {w : World} {dir : TempDir} {serial : Nat} {files : TempFiles} {writable : Bool}

/-- The world with content in a temporary file, if the directory exists. -/
def putTemp (w : World) (dir : TempDir) (serial : Nat) (content : Bytes)
    (writable : Bool := true) : World :=
  match w.temps? dir with
  | some files => w.setTemps dir (files.insert serial { content, writable })
  | none => w

theorem temps?_setTemps (h : w.temps? dir = some files) (new : TempFiles) :
    (w.setTemps dir new).temps? dir = some new := by
  cases dir with
  | scratch name => exact ExtTreeMap.getElem?_insert_self
  | ofCache name =>
    obtain ⟨d, hd, -⟩ := Option.bind_eq_some_iff.1 h
    unfold setTemps temps? setCache
    simp only [hd, ExtTreeMap.getElem?_insert_self, Option.bind_some]

theorem setTemps_setTemps (h : w.temps? dir = some files) (a b : TempFiles) :
    (w.setTemps dir a).setTemps dir b = w.setTemps dir b := by
  cases dir with
  | scratch name =>
    unfold setTemps
    simp only [insert_insert]
  | ofCache name =>
    obtain ⟨d, hd, -⟩ := Option.bind_eq_some_iff.1 h
    unfold setTemps setCache
    simp only [hd, ExtTreeMap.getElem?_insert_self, insert_insert]

theorem setTemps_self (h : w.temps? dir = some files) : w.setTemps dir files = w := by
  cases dir with
  | scratch name =>
    unfold setTemps
    simp only [insert_of_getElem? (show w.scratch[name]? = some files from h)]
  | ofCache name =>
    obtain ⟨d, hd, htemps⟩ := Option.bind_eq_some_iff.1 h
    have hself : { d with temps? := some files } = d := by rw [← htemps]
    unfold setTemps setCache
    simp only [hd, hself, insert_of_getElem? hd]

theorem temps?_putTemp (h : w.temps? dir = some files) (content : Bytes) :
    (w.putTemp dir serial content writable).temps? dir =
      some (files.insert serial { content, writable }) := by
  unfold putTemp
  rw [h]
  exact temps?_setTemps h _

/-- A temporary file that is dropped leaves nothing behind. -/
theorem dropTemp_putTemp (h : w.temps? dir = some files) (hfree : files[serial]? = none)
    (content : Bytes) (writable : Bool := true) :
    (w.putTemp dir serial content writable).dropTemp dir serial = w := by
  unfold dropTemp
  rw [temps?_putTemp h]
  unfold putTemp
  rw [h]
  dsimp only
  rw [setTemps_setTemps h, erase_insert_of_getElem? hfree, setTemps_self h]

theorem dropTemp_of_free (h : w.temps? dir = some files) (hfree : files[serial]? = none) :
    w.dropTemp dir serial = w := by
  unfold dropTemp
  rw [h]
  dsimp only
  rw [erase_of_getElem? hfree, setTemps_self h]

/-- Of a temporary file that was dropped nothing is left. -/
theorem temps?_dropTemp (w : World) (dir : TempDir) (serial : Nat) :
    ((w.dropTemp dir serial).temps? dir).bind (·[serial]?) = none := by
  unfold dropTemp
  cases h : w.temps? dir with
  | none => simp only [h, Option.bind_none]
  | some files =>
    simp only [temps?_setTemps h, Option.bind_some, ExtTreeMap.getElem?_erase_self]

/-- Where there is no such temporary file, nothing is dropped. -/
theorem dropTemp_of_missing (h : (w.temps? dir).bind (·[serial]?) = none) :
    w.dropTemp dir serial = w := by
  cases htemps : w.temps? dir with
  | none =>
    unfold dropTemp
    rw [htemps]
  | some files =>
    rw [htemps, Option.bind_some] at h
    exact dropTemp_of_free htemps h

theorem putTemp_putTemp (a b : Bytes) :
    (w.putTemp dir serial a).putTemp dir serial b writable =
      w.putTemp dir serial b writable := by
  cases h : w.temps? dir with
  | none =>
    unfold putTemp
    simp only [h]
  | some files =>
    have h' : (w.putTemp dir serial a).temps? dir = _ := temps?_putTemp h a
    unfold putTemp at h' ⊢
    simp only [h] at h' ⊢
    simp only [h', setTemps_setTemps h, insert_insert]

theorem read_putTemp (h : w.temps? dir = some files) (content : Bytes) :
    (w.putTemp dir serial content writable).read (.temp dir serial) = .ok content := by
  unfold read
  simp only [temps?_putTemp h, Option.bind_some, ExtTreeMap.getElem?_insert_self]

/-- What cannot be read is not there. -/
theorem missing_of_read {cause : IoError} (h : w.read (.temp dir serial) = .error cause) :
    (w.temps? dir).bind (·[serial]?) = none := by
  unfold read at h
  dsimp only at h
  split at h
  · exact absurd h nofun
  · assumption

theorem isReadOnly_putTemp (h : w.temps? dir = some files) (content : Bytes) :
    (w.putTemp dir serial content writable).isReadOnly (.temp dir serial) = !writable := by
  unfold isReadOnly
  simp only [temps?_putTemp h, Option.bind_some, ExtTreeMap.getElem?_insert_self]

theorem protect_putTemp (h : w.temps? dir = some files) (content : Bytes) :
    (w.putTemp dir serial content).protect (.temp dir serial) =
      w.putTemp dir serial content false := by
  unfold protect
  simp only [temps?_putTemp h, ExtTreeMap.getElem?_insert_self]
  unfold putTemp
  simp only [h, setTemps_setTemps h, insert_insert]

/-- Temporary files are no concern of containers and memories. -/
theorem putTemp_shared (w : World) (containers : ExtTreeMap String Container)
    (memories : ExtTreeMap String Blobs) (content : Bytes) :
    { w with containers, memories }.putTemp dir serial content writable =
      { w.putTemp dir serial content writable with containers, memories } := by
  cases dir with
  | scratch name =>
    show (match w.scratch[name]? with | some _ => _ | none => _ : World) = _
    unfold putTemp temps?
    dsimp only
    cases w.scratch[name]? <;> rfl
  | ofCache name =>
    unfold putTemp setTemps temps?
    dsimp only
    cases w.caches[name]? with
    | none => rfl
    | some d =>
      simp only [Option.bind_some]
      cases d.temps? <;> rfl

theorem putTemp_self (w : World) (content : Bytes) :
    w.putTemp dir serial content writable =
      { w.putTemp dir serial content writable with containers := w.containers, memories := w.memories } :=
  putTemp_shared w w.containers w.memories content

@[simp] theorem containers_putTemp (w : World) (content : Bytes) :
    (w.putTemp dir serial content writable).containers = w.containers := by
  rw [putTemp_self]

@[simp] theorem memories_putTemp (w : World) (content : Bytes) :
    (w.putTemp dir serial content writable).memories = w.memories := by
  rw [putTemp_self]

@[simp] theorem files_putTemp (w : World) (content : Bytes) :
    (w.putTemp dir serial content writable).files = w.files := by
  unfold putTemp setTemps setCache
  repeat' split
  all_goals rfl

@[simp] theorem container_putTemp (w : World) (content : Bytes) (name : String) :
    (w.putTemp dir serial content writable).container name = w.container name := by
  unfold container
  rw [containers_putTemp]

@[simp] theorem memory_putTemp (w : World) (content : Bytes) (name : String) :
    (w.putTemp dir serial content writable).memory name = w.memory name := by
  unfold memory
  rw [memories_putTemp]

theorem setMemory_putTemp (w : World) (content : Bytes) (name : String) (blobs : Blobs) :
    (w.putTemp dir serial content writable).setMemory name blobs =
      (w.setMemory name blobs).putTemp dir serial content writable := by
  unfold setMemory
  simp only [memories_putTemp]
  refine Eq.trans ?_ (putTemp_shared w w.containers _ content).symm
  simp only [containers_putTemp]

theorem setContainer_putTemp (w : World) (content : Bytes) (name : String) (c : Container) :
    (w.putTemp dir serial content writable).setContainer name c =
      (w.setContainer name c).putTemp dir serial content writable := by
  unfold setContainer
  simp only [containers_putTemp]
  refine Eq.trans ?_ (putTemp_shared w _ w.memories content).symm
  simp only [memories_putTemp]

/-- Looking with a temporary file at hand is looking without it. -/
theorem exists_of_putTemp_looks {w v : World} {content : Bytes}
    (h : (w.putTemp dir serial content).Looks v) :
    ∃ u, v = u.putTemp dir serial content ∧ w.Looks u := by
  refine ⟨{ w with containers := v.containers }, ?_, rfl, fun name => ?_⟩
  · refine Eq.trans ?_ (putTemp_shared w v.containers w.memories content).symm
    rw [h.rest]
    simp only [memories_putTemp]
  · have := h.containers name
    rwa [container_putTemp] at this

end World

theorem createTemp_ok {w : World} {dir : TempDir} {files : TempFiles}
    (h : w.temps? dir = some files) :
    createTemp dir w = .ok files.fresh (w.putTemp dir files.fresh []) := by
  unfold createTemp World.putTemp
  rw [run_get_bind]
  simp only [h]
  rfl

/-- A temporary file is made, used and dropped. -/
theorem withTemp_eq {α : Type} (dir : TempDir) (use : LocalPath → Action α) (w : World) :
    withTemp dir use w =
      match createTemp dir w with
      | .error e w => .error e w
      | .ok serial w =>
        match use (.temp dir serial) w with
        | .ok a w => .ok a (w.dropTemp dir serial)
        | .error e w => .error e (w.dropTemp dir serial) := by
  unfold withTemp
  cases hcreate : createTemp dir w with
  | error e v =>
    have howner : TempGuard.create dir w = .error e v := run_bind_error hcreate _
    rw [run_bind_error howner]
  | ok serial v =>
    have howner : TempGuard.create dir w = .ok { path := .temp dir serial } v :=
      run_bind_ok hcreate _
    rw [run_bind_ok howner]
    rfl

/-- Where there is no directory for them, no temporary file is made. -/
theorem withTemp_none {α : Type} {w : World} {dir : TempDir} {use : LocalPath → Action α}
    (h : w.temps? dir = none) : withTemp dir use w = .error (.io (w.tempFailure dir)) w := by
  have hcreate : createTemp dir w = .error (.io (w.tempFailure dir)) w := by
    unfold createTemp
    rw [run_get_bind]
    simp only [h]
    rfl
  rw [withTemp_eq, hcreate]

/-- An action with a temporary file ensures what it does in the world with one file more, once this
file is dropped. -/
theorem withTemp_spec {α : Type} {w : World} {dir : TempDir} {files : TempFiles}
    {use : LocalPath → Action α} {Q : α → World → Prop} {E : BlobError → World → Prop}
    (h : w.temps? dir = some files)
    (huse : ∀ serial, files[serial]? = none →
      Ensures (use (.temp dir serial)) (w.putTemp dir serial [])
        (fun a v => Q a (v.dropTemp dir serial)) fun e v => E e (v.dropTemp dir serial)) :
    Ensures (withTemp dir use) w Q E := by
  have hspec := huse files.fresh (TempFiles.getElem?_fresh files)
  have hcreate := createTemp_ok h
  cases hrun : use (.temp dir files.fresh) (w.putTemp dir files.fresh []) with
  | ok a v =>
    refine Ensures.of_ok (a := a) (t := v.dropTemp dir files.fresh) ?_ (hspec.ok_of_eq hrun)
    rw [withTemp_eq, hcreate]
    simp only [hrun]
  | error e v =>
    refine Ensures.of_error (e := e) (t := v.dropTemp dir files.fresh) ?_ (hspec.error_of_eq hrun)
    rw [withTemp_eq, hcreate]
    simp only [hrun]

namespace TempGuard

variable {α β : Type}

/-- An owner that stays for one action and goes with the next one stays for both. -/
theorem hold_bind_close (g : TempGuard) (x : Action α) (f : α → Action β) :
    (g.hold x >>= fun a => g.close (f a)) = g.close (x >>= f) := by
  funext w
  cases hx : x w with
  | ok a v =>
    have hhold : g.hold x w = .ok a v := by
      unfold hold
      rw [hx]
    rw [run_bind_ok hhold]
    unfold close
    rw [run_bind_ok hx]
  | error e v =>
    have hhold : g.hold x w = .error e (g.drop v) := by
      unfold hold
      rw [hx]
    rw [run_bind_error hhold]
    unfold close
    rw [run_bind_error hx]

/-- Whether the owner goes before or after makes no difference to what is done with the result. -/
theorem map_close (g : TempGuard) (x : Action α) (f : α → β) :
    (do return f (← g.close x) : Action β) = g.close (do return f (← x)) := by
  funext w
  unfold close
  cases hx : x w with
  | ok a v =>
    simp only [Bind.bind, EStateM.bind, hx]
    rfl
  | error e v => simp only [Bind.bind, EStateM.bind, hx]

/-- Nor to what is done with a failure. -/
theorem map_outcome_close (g : TempGuard) (x : Action α) (f : Except BlobError α → β) :
    (do return f (← outcome (g.close x)) : Action β) = g.close (do return f (← outcome x)) := by
  funext w
  cases hx : x w with
  | ok a v =>
    have hclose : g.close x w = .ok a (g.drop v) := by
      unfold close
      rw [hx]
    rw [run_bind_ok (outcome_ok hclose)]
    unfold close
    rw [run_bind_ok (outcome_ok hx)]
    rfl
  | error e v =>
    have hclose : g.close x w = .error e (g.drop v) := by
      unfold close
      rw [hx]
    rw [run_bind_ok (outcome_error hclose)]
    unfold close
    rw [run_bind_ok (outcome_error hx)]
    rfl

/-- An owner that goes once the file is moved away goes as well at the end of what follows, if nothing
of what follows fails or brings the file back. -/
theorem persist_bind_eq_close (g : TempGuard) {move : Action Unit} {rest : Action α}
    (h : ∀ w v, move w = .ok () v → Ensures rest v (fun _ x => g.drop x = x) NoError) :
    (g.persist move >>= fun _ => rest) = g.close (move >>= fun _ => rest) := by
  funext w
  cases hmove : move w with
  | error e v =>
    have hpersist : g.persist move w = .error e (g.drop v) := by
      unfold persist
      rw [hmove]
    rw [run_bind_error hpersist]
    unfold close
    rw [run_bind_error hmove]
  | ok u v =>
    have hpersist : g.persist move w = .ok () v := by
      unfold persist drop
      rw [hmove]
    obtain ⟨a, x, hrest, hx⟩ := (h w v hmove).exists_ok
    rw [run_bind_ok hpersist]
    unfold close
    rw [run_bind_ok hmove, hrest]
    dsimp only
    rw [hx]

end TempGuard

theorem withTemp_map {α β : Type} (dir : TempDir) (use : LocalPath → Action α) (f : α → β) :
    (withTemp dir fun path => do return f (← use path)) = do return f (← withTemp dir use) := by
  unfold withTemp
  simp only [bind_assoc]
  exact bind_congr fun temp => (temp.map_close (use temp.path) f).symm

/-! ## Destinations -/

/-- The path is the caller's own, and none inside a directory that stores work in. -/
def LocalPath.IsOutside : LocalPath → Prop
  | .caller _ | .detached => True
  | .temp _ _ | .entry _ _ => False

/-- The file goes away with what made it. -/
def LocalPath.IsTemporary : LocalPath → Prop
  | .temp _ _ => True
  | .caller _ | .detached | .entry _ _ => False

namespace World

theorem entry?_putTemp (w : World) (dir : TempDir) (serial : Nat) (content : Bytes)
    (writable : Bool) (name file : String) :
    ((w.putTemp dir serial content writable).caches[name]?).bind (·.entries[file]?) =
      (w.caches[name]?).bind (·.entries[file]?) := by
  unfold putTemp
  split
  · cases dir with
    | scratch _ => rfl
    | ofCache other =>
      unfold setTemps
      dsimp only
      cases hd : w.caches[other]? with
      | none => rfl
      | some d =>
        unfold setCache
        dsimp only
        by_cases hother : other = name
        · rw [← hother, ExtTreeMap.getElem?_insert_self, hd]
          rfl
        · rw [getElem?_insert_of_ne hother]
  · rfl

/-- Other files are not concerned by a new temporary file. -/
theorem read_putTemp_of_not_isTemporary {path : LocalPath} (hpath : ¬ path.IsTemporary) (w : World)
    (dir : TempDir) (serial : Nat) (content : Bytes) (writable : Bool := true) :
    (w.putTemp dir serial content writable).read path = w.read path := by
  unfold read
  cases path with
  | caller name => rw [files_putTemp]
  | detached => rfl
  | temp _ _ => exact absurd trivial hpath
  | entry name file =>
    dsimp only
    rw [entry?_putTemp]

theorem isReadOnly_putTemp_of_not_isTemporary {path : LocalPath} (hpath : ¬ path.IsTemporary)
    (w : World) (dir : TempDir) (serial : Nat) (content : Bytes) (writable : Bool := true) :
    (w.putTemp dir serial content writable).isReadOnly path = w.isReadOnly path := by
  unfold isReadOnly
  cases path with
  | caller name => rw [files_putTemp]
  | detached => rfl
  | temp _ _ => exact absurd trivial hpath
  | entry name file =>
    dsimp only
    rw [entry?_putTemp]

/-- A file of the caller's or a temporary file can be written at the path. -/
def Writable (w : World) : LocalPath → Prop
  | .caller name => ∀ node, w.files[name]? = some node → ∃ content, node = .file content
  | .temp dir serial => ∃ files, w.temps? dir = some files ∧
      ∀ file, files[serial]? = some file → file.writable = true
  | .detached | .entry _ _ => False

/-- What can be written is not read-only. -/
theorem Writable.isReadOnly {w : World} {path : LocalPath} (h : w.Writable path) :
    w.isReadOnly path = false := by
  unfold World.isReadOnly
  cases path with
  | caller name =>
    dsimp only
    cases hnode : w.files[name]? with
    | none => rfl
    | some node =>
      obtain ⟨content, rfl⟩ := h node hnode
      rfl
  | detached => rfl
  | temp dir serial =>
    obtain ⟨files, hfiles, hwritable⟩ := h
    dsimp only
    rw [hfiles, Option.bind_some]
    cases hfile : files[serial]? with
    | none => rfl
    | some file =>
      dsimp only
      rw [hwritable file hfile]
      rfl
  | entry _ _ => exact h.elim

theorem writable_putTemp {w : World} {dir : TempDir} {files : TempFiles}
    (h : w.temps? dir = some files) (serial : Nat) (content : Bytes) :
    (w.putTemp dir serial content).Writable (.temp dir serial) := by
  refine ⟨_, temps?_putTemp h content, fun file hfile => ?_⟩
  rw [ExtTreeMap.getElem?_insert_self] at hfile
  rw [← Option.some.inj hfile]

theorem Looks.writable {w v : World} (h : w.Looks v) {path : LocalPath} (hw : w.Writable path) :
    v.Writable path := by
  rw [h.rest]
  cases path with
  | caller name => exact hw
  | detached => exact hw
  | temp dir serial => exact hw
  | entry dir name => exact hw

/-- The world with content at a path where that can be. -/
def place (w : World) (path : LocalPath) (content : Bytes) : World :=
  match path with
  | .caller name => { w with files := w.files.insert name (.file content) }
  | .temp dir serial => w.putTemp dir serial content
  | .detached | .entry _ _ => w

theorem place_shared (w : World) (containers : ExtTreeMap String Container)
    (memories : ExtTreeMap String Blobs) (path : LocalPath) (content : Bytes) :
    { w with containers, memories }.place path content =
      { w.place path content with containers, memories } := by
  cases path with
  | caller name => rfl
  | detached => rfl
  | temp dir serial => exact putTemp_shared w containers memories content
  | entry dir name => rfl

theorem place_self (w : World) (path : LocalPath) (content : Bytes) :
    w.place path content =
      { w.place path content with containers := w.containers, memories := w.memories } :=
  place_shared w w.containers w.memories path content

theorem container_place (w : World) (path : LocalPath) (content : Bytes) (name : String) :
    (w.place path content).container name = w.container name := by
  rw [place_self]
  rfl

theorem follows_place (w : World) (path : LocalPath) (content : Bytes) :
    w.Follows (w.place path content) := fun name => by
  rw [container_place]
  exact .refl _

theorem read_place {w : World} {path : LocalPath} (h : w.Writable path) (content : Bytes) :
    (w.place path content).read path = .ok content := by
  cases path with
  | caller name =>
    show (match ((w.files.insert name (Node.file content))[name]?) with
      | some (.file content _) => .ok content
      | some .directory => .error .isADirectory
      | none => .error .notFound : Except IoError Bytes) = _
    rw [ExtTreeMap.getElem?_insert_self]
  | detached => exact h.elim
  | temp dir serial =>
    obtain ⟨files, hfiles, -⟩ := h
    exact read_putTemp hfiles content
  | entry _ _ => exact h.elim

theorem writable_place {w : World} {path : LocalPath} (h : w.Writable path) (content : Bytes) :
    (w.place path content).Writable path := by
  cases path with
  | caller name =>
    intro node hnode
    have hinsert : (w.files.insert name (Node.file content))[name]? = some node := hnode
    rw [ExtTreeMap.getElem?_insert_self] at hinsert
    exact ⟨content, (Option.some.inj hinsert).symm⟩
  | detached => exact h
  | temp dir serial =>
    obtain ⟨files, hfiles, -⟩ := h
    exact writable_putTemp hfiles serial content
  | entry _ _ => exact h

theorem place_place (w : World) (path : LocalPath) (a b : Bytes) :
    (w.place path a).place path b = w.place path b := by
  cases path with
  | caller name =>
    unfold place
    simp only [insert_insert]
  | detached => rfl
  | temp dir serial => exact putTemp_putTemp a b
  | entry _ _ => rfl

/-- What a path outside leads to is a matter of the caller's files. -/
theorem read_of_files {w v : World} {path : LocalPath} (hpath : path.IsOutside)
    (hfiles : v.files = w.files) : v.read path = w.read path := by
  cases path with
  | caller name =>
    unfold read
    rw [hfiles]
  | detached => rfl
  | temp _ _ => exact hpath.elim
  | entry _ _ => exact hpath.elim

/-- Looking before content is put at a path is looking after it. -/
theorem Looks.place {w v : World} (h : w.Looks v) (path : LocalPath) (content : Bytes) :
    (w.place path content).Looks (v.place path content) := by
  have hv : v.place path content = { w.place path content with containers := v.containers } := by
    rw [h.rest, place_shared, place_self w]
  refine ⟨?_, fun name => ?_⟩
  · rw [hv]
  · rw [container_place, container_place]
    exact h.containers name

end World

theorem putFile_ok {w : World} {path : LocalPath} (h : w.Writable path) (content : Bytes) :
    putFile path content w = .ok () (w.place path content) := by
  have hopen := h.isReadOnly
  unfold putFile
  rw [run_get_bind, hopen, if_neg Bool.false_ne_true]
  cases path with
  | caller name =>
    dsimp only
    cases hnode : w.files[name]? with
    | none => rfl
    | some node =>
      obtain ⟨old, rfl⟩ := h node hnode
      rfl
  | detached => exact h.elim
  | temp dir serial =>
    obtain ⟨files, hfiles, -⟩ := h
    unfold World.place World.putTemp
    simp only [hfiles]
    rfl
  | entry dir name => exact h.elim

theorem copyFile_ok {w : World} {source target : LocalPath} {content : Bytes}
    (hread : w.read source = .ok content) (hopen : w.isReadOnly source = false)
    (h : w.Writable target) : copyFile source target w = .ok () (w.place target content) := by
  unfold copyFile
  rw [run_bind_ok (fileContent_ok hread), run_get_bind, run_bind_ok (putFile_ok h content), hopen]
  rfl

/-- A copy of a file in a temporary file can be written to if the file can. -/
theorem copyFile_temp {w : World} {source : LocalPath} {dir : TempDir} {serial : Nat}
    {content : Bytes} (hread : w.read source = .ok content) (h : w.Writable (.temp dir serial)) :
    copyFile source (.temp dir serial) w =
      .ok () (w.putTemp dir serial content (!w.isReadOnly source)) := by
  unfold copyFile
  rw [run_bind_ok (fileContent_ok hread), run_get_bind, run_bind_ok (putFile_ok h content)]
  obtain ⟨files, hfiles, -⟩ := h
  cases w.isReadOnly source with
  | false => rfl
  | true => exact congrArg (EStateM.Result.ok ()) (World.protect_putTemp hfiles content)

/-- Why a file does not take content is a matter of the caller's files. -/
theorem putFile_error {w : World} {path : LocalPath} (hp : path.IsOutside) (h : ¬ w.Writable path)
    (content : Bytes) :
    ∃ e, ∀ v : World, v.files = w.files → putFile path content v = .error (.io e) v := by
  cases path with
  | caller name =>
    have hnode : w.files[name]? = some .directory ∨
        ∃ content, w.files[name]? = some (.file content false) := by
      by_contra hnot
      refine h fun node hnode => ?_
      cases node with
      | directory => exact absurd (.inl hnode) hnot
      | file old writable =>
        cases writable with
        | true => exact ⟨old, rfl⟩
        | false => exact absurd (.inr ⟨old, hnode⟩) hnot
    unfold putFile World.isReadOnly
    rcases hnode with hnode | ⟨old, hnode⟩
    · refine ⟨.isADirectory, fun v hv => ?_⟩
      rw [run_get_bind]
      simp only [hv, hnode]
      rfl
    · refine ⟨.permissionDenied, fun v hv => ?_⟩
      rw [run_get_bind]
      simp only [hv, hnode]
      rfl
  | detached => exact ⟨.notFound, fun _ _ => rfl⟩
  | temp dir serial => exact hp.elim
  | entry dir name => exact hp.elim

theorem copyFile_error {w : World} {source target : LocalPath} {content : Bytes}
    (hread : w.read source = .ok content) (htarget : target.IsOutside) (h : ¬ w.Writable target) :
    ∃ e, copyFile source target w = .error (.io e) w := by
  obtain ⟨e, he⟩ := putFile_error htarget h content
  refine ⟨e, ?_⟩
  unfold copyFile
  rw [run_bind_ok (fileContent_ok hread), run_get_bind, run_bind_error (he w rfl)]

/-! ## After an action -/

/-- The world that an action leaves, whether it goes through or fails. -/
def World.after {α : Type} (w : World) (x : Action α) : World :=
  match x w with
  | .ok _ v => v
  | .error _ v => v

theorem World.after_spec {α : Type} {w : World} {x : Action α} {P : World → Prop}
    (h : Ensures x w (fun _ v => P v) fun _ v => P v) : P (w.after x) := by
  unfold World.after
  cases hrun : x w with
  | ok _ v => exact h.ok_of_eq hrun
  | error _ v => exact h.error_of_eq hrun

theorem Ensures.of_after {α : Type} {w : World} {x : Action α} {P : World → Prop}
    (h : P (w.after x)) : Ensures x w (fun _ v => P v) fun _ v => P v := by
  unfold World.after at h
  cases hrun : x w with
  | ok _ v =>
    rw [hrun] at h
    exact of_ok hrun h
  | error _ v =>
    rw [hrun] at h
    exact of_error hrun h

theorem World.after_of_ok {α : Type} {w v : World} {x : Action α} {a : α} (h : x w = .ok a v) :
    w.after x = v := by
  unfold World.after
  rw [h]

end BlobVault
