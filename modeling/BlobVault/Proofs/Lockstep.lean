import BlobVault.Proofs.Owners
import BlobVault.Proofs.Store
import BlobVault.Store.Copy

/-!
# Two runs of one action

Two worlds are related if the actions that keep to the cache directories in view cannot tell them
apart, and keep them related (`Related`). Such an action runs in both worlds alike: with one answer,
to worlds that are related again (`Lockstep`). What it makes of the first world is kept as a
relation, which must admit all that changes no object and no directory out of view (`Admits`).

1. `Related`: what related worlds have in common, and the changes that keep them related.
2. `Lockstep.bind`, `Lockstep.strengthen`: runs are chained, and what one of them does is made
   precise.
3. `Lockstep.fileContent`, `Lockstep.withTemp`, `Lockstep.call` and the like: the single steps.
4. `Lockstep.touch`, `Lockstep.install`, `Lockstep.fetch`, `Lockstep.remove`: caches in view.
-/

namespace BlobVault

open Std (ExtTreeMap)

/-! ## Related worlds -/

/-- A directory for temporary files is not inside a cache directory out of view. -/
def TempDir.InView (view : String → Prop) : TempDir → Prop
  | .scratch _ => True
  | .ofCache dir => view dir

/-- A local file is not inside a cache directory out of view. -/
def LocalPath.InView (view : String → Prop) : LocalPath → Prop
  | .caller _ | .detached => True
  | .temp t _ => t.InView view
  | .entry dir _ => view dir

/-- A cache directory keeps its place for temporary files, and gets no new entries but files. -/
structure CacheDir.Keeps (d e : CacheDir) : Prop where
  temps : d.temps?.isSome → e.temps?.isSome
  entries : ∀ (name : String) (node : CacheNode), e.entries[name]? = some node →
    d.entries[name]? = some node ∨ node.IsFile

namespace CacheDir

theorem keeps_insert (d : CacheDir) (name : String) (content : Bytes) (t : Instant)
    (writable : Bool) :
    d.Keeps { d with entries := d.entries.insert name (.file content t writable) } := by
  refine ⟨fun h => h, fun other node hnode => ?_⟩
  rw [ExtTreeMap.getElem?_insert] at hnode
  split at hnode
  · exact .inr ⟨content, t, writable, (Option.some.inj hnode).symm⟩
  · exact .inl hnode

theorem keeps_eraseAll (d : CacheDir) (names : List String) : d.Keeps (d.eraseAll names) := by
  refine ⟨fun h => h, fun other node hnode => ?_⟩
  rw [getElem?_eraseAll] at hnode
  split at hnode
  · exact absurd hnode nofun
  · exact .inl hnode

theorem keeps_temps (d : CacheDir) (files : TempFiles) :
    d.Keeps { d with temps? := some files } :=
  ⟨fun _ => rfl, fun _ _ hnode => .inl hnode⟩

end CacheDir

/-- Worlds that are related have everything in common but the cache directories out of view, and
changes to what they have in common keep them related. -/
structure Related (view : String → Prop) (A : World → World → Prop) : Prop where
  container : ∀ {w v : World}, A w v → ∀ name, v.container name = w.container name
  memories : ∀ {w v : World}, A w v → v.memories = w.memories
  caches : ∀ {w v : World}, A w v → ∀ dir, view dir → v.caches[dir]? = w.caches[dir]?
  scratch : ∀ {w v : World}, A w v → v.scratch = w.scratch
  files : ∀ {w v : World}, A w v → v.files = w.files
  now : ∀ {w v : World}, A w v → v.now = w.now
  setContainer : ∀ {w v : World}, A w v → ∀ name c, (w.container name).Follows c →
    A (w.setContainer name c) (v.setContainer name c)
  setMemory : ∀ {w v : World}, A w v → ∀ name blobs,
    A (w.setMemory name blobs) (v.setMemory name blobs)
  setCache : ∀ {w v : World}, A w v → ∀ dir d e, view dir → w.caches[dir]? = some d → d.Keeps e →
    A (w.setCache dir e) (v.setCache dir e)
  setScratch : ∀ {w v : World}, A w v → ∀ name files,
    A { w with scratch := w.scratch.insert name files }
      { v with scratch := w.scratch.insert name files }
  setFiles : ∀ {w v : World}, A w v → ∀ files, A { w with files } { v with files }
  setNow : ∀ {w v : World}, A w v → ∀ now, A { w with now } { v with now }

namespace Related

variable {view : String → Prop} {A : World → World → Prop} {w v : World} {t : TempDir}

theorem memory (hA : Related view A) (h : A w v) (name : String) :
    v.memory name = w.memory name := by
  unfold World.memory
  rw [hA.memories h]

theorem temps? (hA : Related view A) (h : A w v) (ht : t.InView view) :
    v.temps? t = w.temps? t := by
  unfold World.temps?
  cases t with
  | scratch name =>
    dsimp only
    rw [hA.scratch h]
  | ofCache dir =>
    dsimp only
    rw [hA.caches h dir ht]

theorem tempFailure (hA : Related view A) (h : A w v) (ht : t.InView view) :
    v.tempFailure t = w.tempFailure t := by
  unfold World.tempFailure
  cases t with
  | scratch name => rfl
  | ofCache dir =>
    dsimp only
    rw [hA.caches h dir ht]

theorem setTemps (hA : Related view A) (h : A w v) (ht : t.InView view) (files : TempFiles) :
    A (w.setTemps t files) (v.setTemps t files) := by
  unfold World.setTemps
  cases t with
  | scratch name =>
    dsimp only
    rw [hA.scratch h]
    exact hA.setScratch h name files
  | ofCache dir =>
    dsimp only
    rw [hA.caches h dir ht]
    cases hd : w.caches[dir]? with
    | none => exact h
    | some d => exact hA.setCache h dir d _ ht hd (d.keeps_temps files)

theorem dropTemp (hA : Related view A) (h : A w v) (ht : t.InView view) (serial : Nat) :
    A (w.dropTemp t serial) (v.dropTemp t serial) := by
  unfold World.dropTemp
  rw [hA.temps? h ht]
  cases w.temps? t with
  | none => exact h
  | some files => exact hA.setTemps h ht _

theorem read (hA : Related view A) (h : A w v) {path : LocalPath} (hpath : path.InView view) :
    v.read path = w.read path := by
  unfold World.read
  cases path with
  | caller name =>
    dsimp only
    rw [hA.files h]
  | detached => rfl
  | temp t serial =>
    dsimp only
    rw [hA.temps? h hpath]
  | entry dir name =>
    dsimp only
    rw [hA.caches h dir hpath]

theorem isReadOnly (hA : Related view A) (h : A w v) {path : LocalPath}
    (hpath : path.InView view) : v.isReadOnly path = w.isReadOnly path := by
  unfold World.isReadOnly
  cases path with
  | caller name =>
    dsimp only
    rw [hA.files h]
  | detached => rfl
  | temp t serial =>
    dsimp only
    rw [hA.temps? h hpath]
  | entry dir name =>
    dsimp only
    rw [hA.caches h dir hpath]

theorem protect (hA : Related view A) (h : A w v) {path : LocalPath} (hpath : path.InView view) :
    A (w.protect path) (v.protect path) := by
  unfold World.protect
  cases path with
  | caller name =>
    dsimp only
    rw [hA.files h]
    split
    · exact hA.setFiles h _
    · exact h
  | detached => exact h
  | temp t serial =>
    dsimp only
    rw [hA.temps? h hpath]
    split
    · split
      · exact hA.setTemps h hpath _
      · exact h
    · exact h
  | entry dir name =>
    dsimp only
    rw [hA.caches h dir hpath]
    split
    · rename_i hd
      split
      · exact hA.setCache h dir _ _ hpath hd (CacheDir.keeps_insert _ _ _ _ _)
      · exact h
    · exact h

end Related

namespace World

/-- What requests that change no object, and local files in view, make of a world. -/
structure Spares (view : String → Prop) (w v : World) : Prop where
  containers : ∀ name, (w.container name).Looks (v.container name)
  memories : v.memories = w.memories
  caches : ∀ dir, ¬ view dir → v.caches[dir]? = w.caches[dir]?

variable {view : String → Prop} {dir : String} {w v : World} {t : TempDir}

theorem caches_setCache_self (w : World) (dir : String) (d : CacheDir) :
    (w.setCache dir d).caches[dir]? = some d := ExtTreeMap.getElem?_insert_self

theorem caches_setCache_of_ne (w : World) {other : String} (h : other ≠ dir) (d : CacheDir) :
    (w.setCache other d).caches[dir]? = w.caches[dir]? := getElem?_insert_of_ne h

theorem Spares.refl (view : String → Prop) (w : World) : w.Spares view w :=
  ⟨fun _ => ⟨.refl _, rfl⟩, rfl, fun _ _ => rfl⟩

theorem Looks.spares (h : w.Looks v) (view : String → Prop) : w.Spares view v := by
  refine ⟨h.containers, ?_, fun _ _ => ?_⟩ <;> rw [h.rest]

theorem spares_setCache (w : World) (h : view dir) (d : CacheDir) :
    w.Spares view (w.setCache dir d) := by
  refine ⟨fun _ => ⟨.refl _, rfl⟩, rfl, fun other hother => caches_setCache_of_ne w ?_ d⟩
  rintro rfl
  exact hother h

theorem spares_setNow (w : World) (now : Instant) : w.Spares view { w with now } :=
  ⟨fun _ => ⟨.refl _, rfl⟩, rfl, fun _ _ => rfl⟩

theorem spares_setTemps (w : World) (h : t.InView view) (files : TempFiles) :
    w.Spares view (w.setTemps t files) := by
  unfold setTemps
  cases t with
  | scratch name => exact ⟨fun _ => ⟨.refl _, rfl⟩, rfl, fun _ _ => rfl⟩
  | ofCache dir =>
    dsimp only
    cases w.caches[dir]? with
    | none => exact .refl view w
    | some d => exact spares_setCache w h _

theorem spares_dropTemp (w : World) (h : t.InView view) (serial : Nat) :
    w.Spares view (w.dropTemp t serial) := by
  unfold dropTemp
  cases w.temps? t with
  | none => exact .refl view w
  | some files => exact spares_setTemps w h _

theorem spares_protect (w : World) {path : LocalPath} (hpath : path.InView view) :
    w.Spares view (w.protect path) := by
  unfold protect
  cases path with
  | caller name =>
    dsimp only
    split
    · exact ⟨fun _ => ⟨.refl _, rfl⟩, rfl, fun _ _ => rfl⟩
    · exact .refl view w
  | detached => exact .refl view w
  | temp t serial =>
    dsimp only
    split
    · split
      · exact spares_setTemps w hpath _
      · exact .refl view w
    · exact .refl view w
  | entry dir name =>
    dsimp only
    split
    · split
      · exact spares_setCache w hpath _
      · exact .refl view w
    · exact .refl view w

end World

/-! ## Runs -/

/-- The relation admits every change that leaves the objects and the directories out of view alone,
and one change after another. -/
structure Admits (view : String → Prop) (R : World → World → Prop) : Prop where
  spares : ∀ {w v : World}, w.Spares view v → R w v
  trans : ∀ {u v w : World}, R u v → R v w → R u w

theorem admits_true (view : String → Prop) : Admits view fun _ _ => True :=
  ⟨fun _ => trivial, fun _ _ => trivial⟩

/-- Changes of the first kind are of the second kind, and may come before others of that kind. -/
structure Leads (R S : World → World → Prop) : Prop where
  here : ∀ {w v : World}, R w v → S w v
  before : ∀ {u v w : World}, R u v → S v w → S u w

theorem Admits.leads {view : String → Prop} {R : World → World → Prop} (hR : Admits view R) :
    Leads R R :=
  ⟨id, hR.trans⟩

/-- The action runs alike in related worlds, and makes of the first one what the relation says. -/
def Lockstep {α : Type} (A R : World → World → Prop) (x : Action α) : Prop :=
  ∀ w v, A w v →
    (∃ a w' v', x w = .ok a w' ∧ x v = .ok a v' ∧ A w' v' ∧ R w w') ∨
    ∃ e w' v', x w = .error e w' ∧ x v = .error e v' ∧ A w' v' ∧ R w w'

namespace Lockstep

variable {α β : Type} {view : String → Prop} {A R S : World → World → Prop} {x : Action α}

/-- What the action makes of a world that is related to itself. -/
theorem ensures (hx : Lockstep A R x) {w : World} (hw : A w w) :
    Ensures x w (fun _ v => R w v) fun _ v => R w v := by
  rcases hx w w hw with ⟨a, w', v', hw, -, -, hr⟩ | ⟨e, w', v', hw, -, -, hr⟩
  · exact Ensures.of_ok hw hr
  · exact Ensures.of_error hw hr

/-- What the action makes of the world may be known from elsewhere. -/
theorem strengthen (hx : Lockstep A R x)
    (hspec : ∀ w, Ensures x w (fun _ v => S w v) fun _ v => S w v) : Lockstep A S x := by
  intro w v h
  rcases hx w v h with ⟨a, w', v', hw, hv, h', -⟩ | ⟨e, w', v', hw, hv, h', -⟩
  · exact .inl ⟨a, w', v', hw, hv, h', (hspec w).ok_of_eq hw⟩
  · exact .inr ⟨e, w', v', hw, hv, h', (hspec w).error_of_eq hw⟩

/-- What the action makes of the world may be told less exactly. -/
theorem mono (hx : Lockstep A R x) (h : ∀ {w v : World}, R w v → S w v) : Lockstep A S x := by
  intro w v hwv
  rcases hx w v hwv with ⟨a, w', v', hw, hv, h', hr⟩ | ⟨e, w', v', hw, hv, h', hr⟩
  · exact .inl ⟨a, w', v', hw, hv, h', h hr⟩
  · exact .inr ⟨e, w', v', hw, hv, h', h hr⟩

/-- Carrying a result on changes nothing. -/
theorem map (hx : Lockstep A R x) (f : α → β) :
    Lockstep A R (x >>= fun a => Pure.pure (f a)) := by
  intro w v h
  rcases hx w v h with ⟨a, w', v', hw, hv, h', hr⟩ | ⟨e, w', v', hw, hv, h', hr⟩
  · exact .inl ⟨f a, w', v', run_bind_ok hw _, run_bind_ok hv _, h', hr⟩
  · exact .inr ⟨e, w', v', run_bind_error hw _, run_bind_error hv _, h', hr⟩

theorem outcome (hx : Lockstep A R x) : Lockstep A R (outcome x) := by
  intro w v h
  rcases hx w v h with ⟨a, w', v', hw, hv, h', hr⟩ | ⟨e, w', v', hw, hv, h', hr⟩
  · exact .inl ⟨.ok a, w', v', outcome_ok hw, outcome_ok hv, h', hr⟩
  · exact .inl ⟨.error e, w', v', outcome_error hw, outcome_error hv, h', hr⟩

theorem attempt {x : Action Unit} (hx : Lockstep A R x) : Lockstep A R (attempt x) := by
  intro w v h
  unfold BlobVault.attempt
  rcases hx w v h with ⟨_, w', v', hw, hv, h', hr⟩ | ⟨_, w', v', hw, hv, h', hr⟩
  · rw [hw, hv]
    exact .inl ⟨(), w', v', rfl, rfl, h', hr⟩
  · rw [hw, hv]
    exact .inl ⟨(), w', v', rfl, rfl, h', hr⟩

theorem update {f : World → World} (hf : ∀ w v, A w v → A (f w) (f v)) (hR : ∀ w, R w (f w)) :
    Lockstep A R (modify f : Action Unit) :=
  fun w v h => .inl ⟨(), f w, f v, rfl, rfl, hf w v h, hR w⟩

theorem pure (hR : Admits view R) (a : α) : Lockstep A R (Pure.pure a : Action α) :=
  fun w v h => .inl ⟨a, w, v, rfl, rfl, h, hR.spares (.refl view w)⟩

theorem throw (hR : Admits view R) (e : BlobError) :
    Lockstep A R (MonadExcept.throw e : Action α) :=
  fun w v h => .inr ⟨e, w, v, rfl, rfl, h, hR.spares (.refl view w)⟩

/-- The first of two actions may promise something of its result, and may change less than the
second. -/
theorem bind_leads (hRS : Leads R S) {f : α → Action β} {P : α → Prop} (hx : Lockstep A R x)
    (hP : ∀ w, Ensures x w (fun a _ => P a) fun _ _ => True)
    (hf : ∀ a, P a → Lockstep A S (f a)) : Lockstep A S (x >>= f) := by
  intro w v h
  rcases hx w v h with ⟨a, w', v', hw, hv, h', hr⟩ | ⟨e, w', v', hw, hv, h', hr⟩
  · have hnext := (hf a ((hP w).ok_of_eq hw)) w' v' h'
    rw [← run_bind_ok hw f, ← run_bind_ok hv f] at hnext
    rcases hnext with ⟨b, w'', v'', hw', hv', h'', hr'⟩ | ⟨e, w'', v'', hw', hv', h'', hr'⟩
    · exact .inl ⟨b, w'', v'', hw', hv', h'', hRS.before hr hr'⟩
    · exact .inr ⟨e, w'', v'', hw', hv', h'', hRS.before hr hr'⟩
  · exact .inr ⟨e, w', v', run_bind_error hw f, run_bind_error hv f, h', hRS.here hr⟩

theorem bind_of (hR : Admits view R) {f : α → Action β} {P : α → Prop} (hx : Lockstep A R x)
    (hP : ∀ w, Ensures x w (fun a _ => P a) fun _ _ => True)
    (hf : ∀ a, P a → Lockstep A R (f a)) : Lockstep A R (x >>= f) :=
  bind_leads hR.leads hx hP hf

theorem bind_into (hRS : Leads R S) {f : α → Action β} (hx : Lockstep A R x)
    (hf : ∀ a, Lockstep A S (f a)) : Lockstep A S (x >>= f) :=
  bind_leads (P := fun _ => True) hRS hx (fun _ => Ensures.any _ _) fun a _ => hf a

theorem bind (hR : Admits view R) {f : α → Action β} (hx : Lockstep A R x)
    (hf : ∀ a, Lockstep A R (f a)) : Lockstep A R (x >>= f) :=
  bind_into hR.leads hx hf

/-- What an action does first may depend on what the worlds have in common. -/
theorem get_bind {k : World → β} {f : β → Action α} (hk : ∀ w v, A w v → k v = k w)
    (hf : ∀ b, Lockstep A R (f b)) : Lockstep A R (get >>= fun w => f (k w)) := by
  intro w v h
  rw [run_get_bind, run_get_bind, hk w v h]
  exact hf (k w) w v h

section

variable (hA : Related view A) (hR : Admits view R)

include hA hR

/-! ## Local files -/

theorem fileContent {path : LocalPath} (hpath : path.InView view) :
    Lockstep A R (fileContent path) := by
  intro w v h
  rw [fileContent_eq, fileContent_eq, hA.read h hpath]
  cases w.read path with
  | ok content => exact pure hR content w v h
  | error e => exact throw hR (.io e) w v h

theorem fileSize {path : LocalPath} (hpath : path.InView view) :
    Lockstep A R (fileSize path) := by
  intro w v h
  unfold BlobVault.fileSize
  rw [fileContent_eq, fileContent_eq, hA.read h hpath]
  cases w.read path with
  | ok content => exact pure hR content.length w v h
  | error e =>
    cases e
    case isADirectory => exact pure hR directorySize w v h
    all_goals exact throw hR _ w v h

theorem putFile {path : LocalPath} (hpath : path.InView view) (content : Bytes) :
    Lockstep A R (putFile path content) := by
  intro w v h
  unfold BlobVault.putFile
  rw [run_get_bind, run_get_bind, hA.isReadOnly h hpath]
  split
  · exact throw hR _ w v h
  cases path with
  | caller name =>
    have hset : ∃ a w' v', (set { w with files := w.files.insert name (.file content) } :
          Action Unit) w = .ok a w' ∧
        (set { v with files := w.files.insert name (.file content) } : Action Unit) v = .ok a v' ∧
        A w' v' ∧ R w w' :=
      ⟨(), _, _, rfl, rfl, hA.setFiles h _,
        hR.spares ⟨fun _ => ⟨.refl _, rfl⟩, rfl, fun _ _ => rfl⟩⟩
    dsimp only
    rw [hA.files h]
    cases w.files[name]? with
    | none => exact .inl hset
    | some node =>
      cases node with
      | directory => exact throw hR _ w v h
      | file _ _ => exact .inl hset
  | detached => exact throw hR _ w v h
  | temp t serial =>
    dsimp only
    rw [hA.temps? h hpath]
    cases w.temps? t with
    | none =>
      dsimp only
      rw [hA.tempFailure h hpath]
      exact throw hR _ w v h
    | some files =>
      exact .inl ⟨(), _, _, rfl, rfl, hA.setTemps h hpath _,
        hR.spares (w.spares_setTemps hpath _)⟩
  | entry dir name =>
    dsimp only
    rw [hA.caches h dir hpath]
    cases hd : w.caches[dir]? with
    | none => exact throw hR _ w v h
    | some d =>
      dsimp only
      rw [hA.now h]
      exact .inl ⟨(), _, _, rfl, rfl, hA.setCache h dir d _ hpath hd (d.keeps_insert _ _ _ _),
        hR.spares (w.spares_setCache hpath _)⟩

theorem copyFile {source target : LocalPath} (hsource : source.InView view)
    (htarget : target.InView view) : Lockstep A R (copyFile source target) := by
  refine (fileContent hA hR hsource).bind hR fun content => ?_
  refine get_bind (k := fun w => w.isReadOnly source)
    (f := fun protects => do
      BlobVault.putFile target content
      if protects then modify (·.protect target))
    (fun w v h => hA.isReadOnly h hsource) fun protects => ?_
  refine (putFile hA hR htarget content).bind hR fun _ => ?_
  cases protects with
  | true =>
    exact update (fun _ _ h => hA.protect h htarget) fun w => hR.spares (w.spares_protect htarget)
  | false => exact pure hR ()

theorem createTemp {t : TempDir} (ht : t.InView view) : Lockstep A R (createTemp t) := by
  intro w v h
  unfold BlobVault.createTemp
  rw [run_get_bind, run_get_bind, hA.temps? h ht]
  cases w.temps? t with
  | none =>
    dsimp only
    rw [hA.tempFailure h ht]
    exact throw hR _ w v h
  | some files =>
    exact .inl ⟨_, _, _, rfl, rfl, hA.setTemps h ht _, hR.spares (w.spares_setTemps ht _)⟩

theorem withTemp {t : TempDir} (ht : t.InView view) {use : LocalPath → Action α}
    (huse : ∀ path, path.InView view → Lockstep A R (use path)) :
    Lockstep A R (withTemp t use) := by
  intro w v h
  rw [withTemp_eq, withTemp_eq]
  rcases createTemp hA hR ht w v h with
    ⟨serial, w', v', hw, hv, h', hr⟩ | ⟨e, w', v', hw, hv, h', hr⟩
  · rw [hw, hv]
    dsimp only
    rcases huse (.temp t serial) ht w' v' h' with
      ⟨a, w'', v'', hw, hv, h'', hr'⟩ | ⟨e, w'', v'', hw, hv, h'', hr'⟩
    · rw [hw, hv]
      exact .inl ⟨a, _, _, rfl, rfl, hA.dropTemp h'' ht serial,
        hR.trans (hR.trans hr hr') (hR.spares (w''.spares_dropTemp ht serial))⟩
    · rw [hw, hv]
      exact .inr ⟨e, _, _, rfl, rfl, hA.dropTemp h'' ht serial,
        hR.trans (hR.trans hr hr') (hR.spares (w''.spares_dropTemp ht serial))⟩
  · rw [hw, hv]
    exact .inr ⟨e, w', v', rfl, rfl, h', hr⟩

/-! ## Requests -/

variable {r : RemoteStore} {q : Call α}

omit hR in
/-- A container is the same in both worlds, and so is what it answers. -/
theorem call (hq : ∀ w, Ensures q (w.container r.container)
      (fun _ c => (w.container r.container).Follows c ∧ R w (w.setContainer r.container c))
      fun _ c => (w.container r.container).Follows c ∧ R w (w.setContainer r.container c)) :
    Lockstep A R (r.call q) := by
  intro w v h
  have hanswer := hq w
  unfold RemoteStore.call
  rw [hA.container h]
  cases heq : q (w.container r.container) with
  | ok a c =>
    obtain ⟨hfollows, hr⟩ := hanswer.ok_of_eq heq
    exact .inl ⟨.ok a, _, _, rfl, rfl, hA.setContainer h _ c hfollows, hr⟩
  | error e c =>
    obtain ⟨hfollows, hr⟩ := hanswer.error_of_eq heq
    exact .inl ⟨.error e, _, _, rfl, rfl, hA.setContainer h _ c hfollows, hr⟩

theorem call_of_looks
    (hq : ∀ c : Container, Ensures q c (fun _ d => c.Looks d) fun _ d => c.Looks d) :
    Lockstep A R (r.call q) := by
  refine call hA fun w => (hq _).mono ?_ ?_
  · exact fun _ _ h => ⟨h.1, hR.spares (World.Looks.spares (.of_container h) view)⟩
  · exact fun _ _ h => ⟨h.1, hR.spares (World.Looks.spares (.of_container h) view)⟩

omit hA in
theorem find? (hq : Lockstep A R (r.call q)) : Lockstep A R (r.find? q) := by
  refine hq.bind hR fun answer => ?_
  cases answer with
  | ok a => exact pure hR _
  | error e =>
    cases e
    case notFound path => exact pure hR _
    all_goals exact throw hR _

omit hA in
theorem require (hq : Lockstep A R (r.call q)) : Lockstep A R (r.require q) := by
  refine hq.bind hR fun answer => ?_
  cases answer with
  | ok a => exact pure hR _
  | error e => exact throw hR _

omit hA in
theorem ensure {q : Call Unit} (hq : Lockstep A R (r.call q)) : Lockstep A R (r.ensure q) := by
  refine hq.bind hR fun answer => ?_
  cases answer with
  | ok a => exact pure hR _
  | error e =>
    cases e
    case alreadyExists path => exact pure hR _
    all_goals exact throw hR _

theorem size? (r : RemoteStore) (key : String) : Lockstep A R (r.size? key) :=
  find? hR (call_of_looks hA hR fun c =>
    (c.head_spec _).mono (fun _ _ h => h.1) fun _ _ h => h.1)

/-! ## Caches in view -/

variable {c : FileCache}

theorem touch (hc : view c.dir) (key : String) : Lockstep A R (c.touch key) := by
  intro w v h
  unfold FileCache.touch
  dsimp only
  rw [run_get_bind, run_get_bind, hA.caches h c.dir hc]
  cases hd : w.caches[c.dir]? with
  | none => exact pure hR none w v h
  | some d =>
    dsimp only
    by_cases hlong : maxNameLength < (FileCache.entryName key).length
    · rw [if_pos hlong]
      exact throw hR _ w v h
    · rw [if_neg hlong]
      by_cases hempty : FileCache.entryName key = ""
      · rw [if_pos hempty]
        exact throw hR _ w v h
      · rw [if_neg hempty]
        cases d.entries[FileCache.entryName key]? with
        | none => exact pure hR none w v h
        | some node =>
          cases node with
          | directory => exact throw hR _ w v h
          | file content t writable =>
            cases writable with
            | false => exact throw hR _ w v h
            | true =>
              refine .inl ⟨_, _, _, rfl, rfl, ?_, ?_⟩
              · rw [hA.now h]
                exact hA.setCache (hA.setNow h (w.now + 1)) c.dir d _ hc hd
                  (d.keeps_insert _ _ _ _)
              · exact hR.trans (hR.spares (w.spares_setNow (w.now + 1)))
                  (hR.spares (World.spares_setCache _ hc _))

theorem evictExcept (hc : view c.dir) (keep? : Option String) :
    Lockstep A R (c.evictExcept keep?) := by
  intro w v h
  unfold FileCache.evictExcept
  rw [run_get_bind, run_get_bind, hA.caches h c.dir hc]
  cases hd : w.caches[c.dir]? with
  | none => exact throw hR _ w v h
  | some d =>
    dsimp only
    rw [hA.now h]
    exact .inl ⟨_, _, _, rfl, rfl, hA.setCache h c.dir d _ hc hd (d.keeps_eraseAll _),
      hR.spares (w.spares_setCache hc _)⟩

theorem publish (hc : view c.dir) (key : String) {t : TempDir} (ht : t.InView view)
    (serial : Nat) : Lockstep A R (c.publish key t serial) := by
  have hpath : LocalPath.InView view (.temp t serial) := ht
  refine (fileContent hA hR hpath).bind hR fun content => ?_
  intro w v h
  rw [run_get_bind, run_get_bind, hA.caches h c.dir hc, hA.isReadOnly h hpath]
  cases hd : w.caches[c.dir]? with
  | none => exact throw hR _ w v h
  | some d =>
    generalize (!w.isReadOnly (.temp t serial)) = writable
    have hmove : ∃ a w' v', (do
            let now ← tick
            modify fun w => (w.setCache c.dir { d with
              entries := d.entries.insert (FileCache.entryName key)
                (.file content now writable) }).dropTemp t serial : Action Unit) w = .ok a w' ∧
          (do
            let now ← tick
            modify fun w => (w.setCache c.dir { d with
              entries := d.entries.insert (FileCache.entryName key)
                (.file content now writable) }).dropTemp t serial : Action Unit) v = .ok a v' ∧
          A w' v' ∧ R w w' := by
      refine ⟨(), _, _, rfl, rfl, ?_, ?_⟩
      · rw [hA.now h]
        exact hA.dropTemp (hA.setCache (hA.setNow h (w.now + 1)) c.dir d _ hc hd
          (d.keeps_insert (FileCache.entryName key) content w.now writable)) ht serial
      · exact hR.trans (hR.spares (w.spares_setNow (w.now + 1))) (hR.trans
          (hR.spares (World.spares_setCache _ hc _)) (hR.spares (World.spares_dropTemp _ ht _)))
    dsimp only
    by_cases hlong : maxNameLength < (FileCache.entryName key).length
    · rw [if_pos hlong]
      exact throw hR _ w v h
    · rw [if_neg hlong]
      by_cases hempty : FileCache.entryName key = ""
      · rw [if_pos hempty]
        exact throw hR _ w v h
      · rw [if_neg hempty]
        cases d.entries[FileCache.entryName key]? with
        | none => exact .inl hmove
        | some node =>
          cases node with
          | directory => exact throw hR _ w v h
          | file _ _ _ => exact .inl hmove

theorem install (hc : view c.dir) (key : String) {path : LocalPath} (hpath : path.InView view) :
    Lockstep A R (c.install key path) := by
  cases path with
  | temp t serial =>
    exact (publish hA hR hc key hpath serial).bind hR fun _ =>
      (attempt ((evictExcept hA hR hc _).bind hR fun _ => pure hR _)).bind hR fun _ => pure hR _
  | caller _ => exact throw hR _
  | detached => exact throw hR _
  | entry _ _ => exact throw hR _

theorem insertFile (hc : view c.dir) (key : String) {source : LocalPath}
    (hsource : source.InView view) : Lockstep A R (c.insertFile key source) := by
  rw [c.insertFile_eq]
  exact withTemp hA hR (show c.tempDir.InView view from hc) fun _ hpath =>
    (copyFile hA hR hsource hpath).bind hR fun _ => install hA hR hc key hpath

theorem fetch (hc : view c.dir) (key : String) {download : LocalPath → Action Bool}
    (hdownload : ∀ path, path.InView view → Lockstep A R (download path)) :
    Lockstep A R (c.fetch key download) := by
  rw [c.fetch_eq]
  refine (touch hA hR hc key).bind hR fun path? => ?_
  cases path? with
  | some path => exact pure hR _
  | none =>
    refine withTemp hA hR (show c.tempDir.InView view from hc) fun path hpath =>
      (hdownload path hpath).bind hR fun found => ?_
    cases found with
    | true => exact (install hA hR hc key hpath).bind hR fun _ => pure hR _
    | false => exact pure hR _

theorem remove (hc : view c.dir) (key : String) : Lockstep A R (c.remove key) := by
  intro w v h
  unfold FileCache.remove
  rw [run_get_bind, run_get_bind, hA.caches h c.dir hc]
  cases hd : w.caches[c.dir]? with
  | none => exact pure hR () w v h
  | some d =>
    dsimp only
    cases d.entries[FileCache.entryName key]? with
    | none => exact pure hR () w v h
    | some node =>
      cases node with
      | directory => exact pure hR () w v h
      | file _ _ _ =>
        exact .inl ⟨(), _, _, rfl, rfl, hA.setCache h c.dir d _ hc hd (d.keeps_eraseAll _),
          hR.spares (w.spares_setCache hc _)⟩

theorem clearCache (hc : view c.dir) : Lockstep A R c.clear := by
  intro w v h
  unfold FileCache.clear
  rw [run_get_bind, run_get_bind, hA.caches h c.dir hc]
  cases hd : w.caches[c.dir]? with
  | none => exact throw hR _ w v h
  | some d =>
    exact .inl ⟨(), _, _, rfl, rfl, hA.setCache h c.dir d _ hc hd (d.keeps_eraseAll _),
      hR.spares (w.spares_setCache hc _)⟩

end

end Lockstep

end BlobVault
