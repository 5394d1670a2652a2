import BlobVault.Proofs.Copying.Lookup
import BlobVault.Proofs.Copying.Pairs

/-!
# Operations that fail

A write that fails, and a copy or a move that fails or finds no blob, leave every object as it was,
whatever goes wrong on the way, as long as no request is carried out that is answered with an error.
Of the caches only those of a source may be changed, by the look-up of its key. What a move deletes,
its target has.

1. `Store.write_any`: writes, by induction on the caches.
2. `Store.delete_any`, `RemoteStore.copyInside_any`, `PlainStore.copyThrough_any`: the ways of
   copies and moves.
3. `Store.failed_keeps`: failures as the callers see them.
-/

namespace BlobVault

open Std (ExtTreeMap)
open FileCache (entryName)

variable {w v : World} {key sourceKey : String}

/-! ## Writes -/

/-- If an action fails with all objects and entries as they were, bringing content into a local file
for it does so too. -/
theorem WriteRequest.withLocal_any {α : Type} {use : LocalContent → Action α}
    (huse : ∀ content v, v.Effectless →
      Ensures (use content) v (fun _ _ => True) fun _ u => v.Warms [] u)
    (r : WriteRequest) (dir : TempDir) (hw : w.Effectless) :
    Ensures (r.withLocal dir use) w (fun _ _ => True) fun _ v => w.Warms [] v := by
  have hself : w.Warms [] w := .of_looks (.refl w) []
  cases hsource : r.source with
  | file path =>
    exact withLocal_file_spec hsource (fun _ _ => hself) fun key content length _ _ =>
      huse ⟨key, path, length, false⟩ w hw
  | stream chunks =>
    cases hfiles : w.temps? dir with
    | none =>
      unfold withLocal
      rw [hsource]
      exact Ensures.of_error (withTemp_none hfiles) hself
    | some files =>
      refine withLocal_stream_spec hsource hfiles (fun _ _ => hself) ?_
      intro key content serial _ _
      have hput := w.warms_putTemp dir serial content
      have hlocal : (w.putTemp dir serial content).Effectless := fun name =>
        (hput.containers name).1.effectless (hw name)
      exact (huse ⟨key, .temp dir serial, content.length, true⟩ _ hlocal).mono (fun _ _ h => h)
        fun e v hv => (hput.trans hv).trans (v.warms_dropTemp dir serial)

/-- Storing a file changes nothing if it fails. If it goes through and no request falsely says that
an object is absent or present, the key is held. -/
theorem PlainStore.storeFile_any (p : PlainStore) (key : String) (file : LocalPath) (length : Nat)
    (heffectless : p.Effectless w) :
    Ensures (p.storeFile key file length) w (fun _ v => p.Honest w → (p.hold? v key).isSome)
      fun _ v => w.Looks v := by
  have hputs := p.storeFile_puts key file length w
  cases hrun : p.storeFile key file length w with
  | error e v => exact Ensures.of_error hrun ((hputs.error_of_eq hrun).2 heffectless)
  | ok a v =>
    refine Ensures.of_ok hrun fun hw => ?_
    rcases (p.storeFile_spec hw key file length).ok_of_eq hrun with
      ⟨hheld, hv⟩ | ⟨-, content, -, hv⟩
    · rwa [hold?_of_looks hv]
    · rw [hold?_of_looks hv, hold?_put_self]
      rfl

namespace Store

/-- What is merely attempted does not fail. -/
theorem attempt_any (x : Action Unit) (w : World) :
    Ensures (attempt x) w (fun _ _ => True) NoError := by
  unfold Ensures attempt
  cases x w <;> trivial

/-- A write that fails leaves all objects and entries. -/
theorem write_any (s : Store) (r : WriteRequest) (hw : w.Effectless) :
    Ensures (s.write r) w (fun _ _ => True) fun _ v => w.Warms [] v := by
  have hplain : ∀ (p : PlainStore) (r : WriteRequest) {w : World}, w.Effectless →
      Ensures (p.toStore.write r) w (fun _ _ => True) fun _ v => w.Warms [] v := by
    intro p r w hw
    rw [p.write_eq]
    refine WriteRequest.withLocal_any (fun content v hv => ?_) r p.tempDir hw
    have hstored := p.storeFile_any content.key content.path content.length (.of_world hv p)
    exact Ensures.bind (hstored.mono (fun _ _ h => h) fun _ u h => .of_looks h [])
      fun _ u _ => Ensures.pure trivial
  induction s generalizing r w with
  | memory m => exact hplain (.memory m) r hw
  | remote o => exact hplain (.remote o) r hw
  | caching name cache inner ih =>
    -- the copy in the cache is attempted once the write has gone through
    rw [write_caching]
    refine WriteRequest.withLocal_any (fun content v hv => ?_) r cache.tempDir hw
    refine Ensures.bind (ih _ hv) fun key u _ => ?_
    exact Ensures.bind ((attempt_any _ u).mono (fun _ _ h => h) fun _ _ h => h.elim)
      fun _ _ _ => Ensures.pure trivial

/-! ## Deletions -/

/-- Whatever its directory is like, a cache forgets a key without changing anything else. -/
theorem remove_any (cache : FileCache) (key : String) (w : World) :
    Ensures (cache.remove key) w (fun _ v => w.Warms [cache.dir] v) NoError := by
  have hself : w.Warms [cache.dir] w := .of_looks (.refl w) _
  unfold FileCache.remove
  refine Ensures.bind_ok (t := w) (a := w) rfl ?_
  cases hd : w.caches[cache.dir]? with
  | none => exact Ensures.pure hself
  | some d =>
    dsimp only
    split
    · have hwarms := cache.warms_refill w w.now (d.eraseAll [entryName key]).entries
      rw [FileCache.refill_eq hd] at hwarms
      exact Ensures.set hwarms
    · exact Ensures.pure hself

/-- Whatever happens, a deletion goes through and concerns no other object. -/
theorem delete_any (s : Store) (key : String) (w : World) :
    Ensures (s.delete key) w
      (fun _ v => ∀ place, place ≠ s.place key → v.bytesAt? place = w.bytesAt? place) NoError := by
  have hplain : ∀ (p : PlainStore) (w : World), Ensures (p.toStore.delete key) w
      (fun _ v => ∀ place, place ≠ p.place key → v.bytesAt? place = w.bytesAt? place) NoError := by
    intro p w
    refine (p.delete_spec w key).mono ?_ fun _ _ h => h
    rintro _ v (hv | ⟨hv, -⟩) place hplace
    · rw [hv.keeps, p.bytesAt?_drop_of_ne w hplace]
    · exact hv.keeps place
  induction s generalizing w with
  | memory m => exact hplain (.memory m) w
  | remote r => exact hplain (.remote r) w
  | caching name cache inner ih =>
    refine Ensures.bind (remove_any cache key w) fun _ x hx => ?_
    refine (ih x).mono (fun _ v hv place hplace => ?_) fun _ _ h => h
    rw [hv place hplace, hx.keeps]

/-! ## Copies and moves -/

/-- A copy ends with nothing found, in a world that is admitted, or with its key. If no request
falsely says that an object is absent or present, it then has left the object of the source unless
the target holds its key. -/
def EndsSafe (source : Store) (sourceKey : String) (q : PlainStore) (key : String) (w : World)
    (admitted : World → Prop) (k? : Option String) (v : World) : Prop :=
  (k? = none ∧ admitted v) ∨
    (k? = some key ∧ (w.Honest → q.place key ≠ source.place sourceKey →
      v.bytesAt? (source.place sourceKey) = w.bytesAt? (source.place sourceKey) ∨
        v.bytesAt? (q.place key) ≠ none))

variable {source : Store} {q : PlainStore} {move : Bool} {A : World → Prop}

/-- The end of a copy to a target that holds its key. -/
theorem finish_any {x : World} (hx : w.Honest → (q.hold? x key).isSome) :
    Ensures (if move then (do let _ ← source.delete sourceKey; return some key)
        else return some key : Action (Option String)) x
      (fun k? v => source.EndsSafe sourceKey q key w A k? v) NoError := by
  refine (finish_spec (D := fun x v => ∀ place, place ≠ source.place sourceKey →
    v.bytesAt? place = x.bytesAt? place) (source.delete_any sourceKey x)).mono ?_ fun _ _ h => h
  rintro k? v ⟨rfl, hv⟩
  refine .inr ⟨rfl, fun hw hne => .inr ?_⟩
  have hheld : x.bytesAt? (q.place key) ≠ none := by
    rw [PlainStore.bytesAt?_place]
    exact Option.isSome_iff_ne_none.1 (hx hw)
  cases move with
  | true => rwa [hv _ hne]
  | false => rwa [show v = x from hv]

end Store

/-- Copying inside a container. -/
theorem RemoteStore.copyInside_any (r o : RemoteStore) (source : Store) (key sourceKey : String)
    (move : Bool) (heffectless : (w.container r.container).Effectless) :
    Ensures (r.copyInside key source o sourceKey move) w
      (fun k? v => source.EndsSafe sourceKey (.remote r) key w w.Looks k? v)
      fun _ v => w.Looks v := by
  unfold copyInside
  refine Ensures.bind (o.size?_tells sourceKey w) ?_
  rintro sourceSize? u ⟨hu, -⟩
  split
  · exact Ensures.pure (.inl ⟨rfl, hu⟩)
  dsimp only
  split
  · exact Ensures.pure (.inr ⟨rfl, fun _ _ => .inl (hu.keeps _)⟩)
  refine Ensures.bind ((r.size?_tells key u).mono (fun _ _ h => h) fun _ _ h => hu.trans h) ?_
  rintro size? x ⟨hx, hheld, -⟩
  have hwx := hu.trans hx
  cases size? with
  | some n =>
    rw [if_neg (show ¬ (some n).isNone = true from nofun)]
    refine (Store.finish_any fun _ => ?_).mono (fun _ _ h => h) fun _ _ h => h.elim
    rw [PlainStore.hold?_of_looks hx]
    exact hheld n rfl
  | none =>
    rw [if_pos (show (none : Option Nat).isNone = true from rfl)]
    refine Ensures.bind ((r.call_spec (Container.copyToFree_spec _ _ _)).mono (fun _ _ h => h)
      fun _ _ h => h.elim) ?_
    rintro answer y ⟨d, rfl, ⟨_, rfl, hd, -, content, -, hobjects⟩ | ⟨e, rfl, hd, he⟩⟩
    · have hput := r.put_looks (.refl x) hd hobjects
      refine (Store.finish_any fun _ => ?_).mono (fun _ _ h => h) fun _ _ h => h.elim
      rw [PlainStore.hold?_of_looks hput, PlainStore.hold?_put_self]
      rfl
    · have hlooks := hd.looks ((hwx.containers r.container).1.effectless heffectless)
      have hy := hwx.trans (.of_container hlooks)
      cases e with
      | alreadyExists path =>
        -- without a fault that lies, something is there
        refine (Store.finish_any fun hw => ?_).mono (fun _ _ h => h) fun _ _ h => h.elim
        have hsome : ((PlainStore.remote r).hold? x key).isSome := by
          rcases he with ⟨-, he⟩ | ⟨-, hsome, -⟩ | hstruck
          · exact absurd he nofun
          · exact hsome
          · have hhonest := (hwx.containers r.container).1.honest (hw r.container)
            exact absurd rfl (hstruck.ne_alreadyExists hhonest (.inr rfl) path)
        rwa [PlainStore.hold?_of_looks (.of_container hlooks)]
      | notFound path => exact Ensures.pure (.inl ⟨rfl, hy⟩)
      | generic => exact Ensures.bind_error rfl hy
      | denied _ => exact Ensures.bind_error rfl hy

/-- Bringing a local file into a store changes nothing if it fails. -/
theorem PlainStore.upload_any (q : PlainStore) (key : String) {file : LocalPath} {content : Bytes}
    (hread : w.read file = .ok content) (heffectless : q.Effectless w) :
    Ensures (q.upload key file) w (fun _ v => q.Honest w → (q.hold? v key).isSome)
      fun _ v => w.Looks v := by
  have hstored := q.storeFile_any key file content.length heffectless
  cases q with
  | memory m => exact hstored
  | remote r => exact Ensures.bind_ok (fileSize_ok hread) hstored

/-- Copying through a local file, given what is left where the blob is handed on and where there is
none. -/
theorem Store.copyThrough_any {source : Store} {q : PlainStore} {t : TempDir}
    {use : LocalPath → Action Unit} {move : Bool} {A : World → Prop}
    (hfile : Ensures (source.withFile sourceKey t use) w
      (fun done? x => (done? = none ∧ A x) ∨
        (done? = some () ∧ (w.Honest → (q.hold? x key).isSome)))
      fun _ v => A v) :
    Ensures (do
        match ← source.withFile sourceKey t use with
        | none => return none
        | some _ =>
          if move then source.delete sourceKey
          return some key : Action (Option String)) w
      (fun k? v => source.EndsSafe sourceKey q key w A k? v) fun _ v => A v := by
  refine Ensures.bind hfile ?_
  rintro done? x (⟨rfl, hx⟩ | ⟨rfl, hx⟩)
  · exact Ensures.pure (.inl ⟨rfl, hx⟩)
  · exact (Store.finish_any hx).mono (fun _ _ h => h) fun _ _ h => h.elim

/-- Copying through a local file, whichever store the target is. -/
theorem PlainStore.copyThrough_any (q : PlainStore) (source : Store) (key sourceKey : String)
    (move : Bool) (heffectless : w.Effectless) :
    Ensures (q.copyThrough key source sourceKey move) w
      (fun k? v => source.EndsSafe sourceKey q key w (source.LookedUp sourceKey w) k? v)
      fun _ v => source.LookedUp sourceKey w v := by
  have hfile : Ensures (source.withFile sourceKey q.tempDir (q.upload key)) w
      (fun done? x => (done? = none ∧ source.LookedUp sourceKey w x) ∨
        (done? = some () ∧ (w.Honest → (q.hold? x key).isSome)))
      fun _ v => source.LookedUp sourceKey w v := by
    refine Store.withFile_any (fun v hv => .inl ⟨rfl, hv⟩) (fun _ _ hv => hv) ?_
    intro path content v hread hv
    have hfollows : w.Follows v := fun name => (hv.warms.containers name).1
    refine (q.upload_any key hread (.of_world (hfollows.effectless heffectless) q)).mono
      (fun _ x hx y hy => .inr ⟨rfl, fun hw => ?_⟩) ?_
    · rw [hold?_of_keeps hy.keeps]
      exact hx (.of_world (hfollows.honest hw) q)
    · exact fun _ x hx y hy => hv.warms_after ((World.Warms.of_looks hx []).trans hy)
  cases q with
  | memory m => exact Store.copyThrough_any hfile
  | remote r => exact Store.copyThrough_any hfile

/-! ## Requests that are refused -/

namespace RemoteStore

variable {r : RemoteStore} {c : Container}

/-- A request that fails and leaves the container as it was leaves the world as it was. -/
theorem call_refused (hc : w.containers[r.container]? = some c) {α : Type} {x : Call α}
    {e : ContainerError} (hx : x c = .error e c) : r.call x w = .ok (.error e) w := by
  have hcontainer : w.container r.container = c := by
    unfold World.container
    rw [ExtTreeMap.getD_eq_getD_getElem?, hc]
    rfl
  unfold call
  rw [hcontainer, hx]
  exact congrArg (EStateM.Result.ok _) (World.setContainer_self hc)

/-- A small file is not stored if the container has no object for the key and does not take one. -/
theorem storeFile_refused (hc : w.containers[r.container]? = some c) {file : LocalPath}
    {content : Bytes} {path : String} {e : ContainerError}
    (hhead : Container.head (r.pathFor key) c = .error (.notFound path) c)
    (hcreate : Container.create (r.pathFor key) content c = .error e c)
    (he : ∀ path, e ≠ .alreadyExists path) (hread : w.read file = .ok content)
    (hlength : content.length ≤ r.threshold) :
    r.storeFile key file content.length w = .error (.backend (.container e)) w := by
  have hsize : r.size? key w = .ok none w := run_bind_ok (call_refused hc hhead) _
  have hensure : r.ensure (Container.create (r.pathFor key) content) w =
      .error (.backend (.container e)) w := by
    refine (run_bind_ok (call_refused hc hcreate) _).trans ?_
    cases e with
    | alreadyExists path => exact absurd rfl (he path)
    | _ => rfl
  refine (run_bind_ok hsize _).trans ?_
  show (if content.length ≤ r.threshold then _ else _ : Action Unit) w = _
  rw [if_pos hlength]
  exact (run_bind_ok (fileContent_ok hread) _).trans hensure

/-- A copy fails where the store refuses the file that the source has. -/
theorem copyThrough_refused {source : Store} {file : LocalPath} {content : Bytes} {e : BlobError}
    {u : World} (hlocal : source.localFile sourceKey w = .ok (.found file) v)
    (hread : v.read file = .ok content)
    (hstore : r.storeFile key file content.length v = .error e u) (move : Bool) :
    r.copyThrough key source sourceKey move w = .error e u := by
  have hupload := (run_bind_ok (fileSize_ok hread) _).trans hstore
  exact run_bind_error ((run_bind_ok hlocal _).trans (run_bind_error hupload _)) _

end RemoteStore

/-- A write of a local file fails where the store refuses the file. -/
theorem PlainStore.write_refused (p : PlainStore) {file : LocalPath} {content : Bytes}
    {e : BlobError} (hread : w.read file = .ok content)
    (hstore : p.storeFile key file content.length w = .error e v) :
    p.toStore.write { source := .file file, key? := some key } w = .error e v := by
  have hinspect : WriteRequest.inspect { source := .file file, key? := some key } file w =
      .ok (key, content.length) w := by
    rw [WriteRequest.inspect_eq, hread]
    rfl
  rw [p.write_eq]
  exact (run_bind_ok hinspect _).trans (run_bind_error hstore _)

/-- A file that the cache has is given out, and its entry is marked as used. -/
theorem FileCache.localFile_hit {c : FileCache} {content : Bytes} {t : Instant} (name : String)
    (inner : Store) (hw : c.Intact w) (hplain : ¬ ByteRange.isAnnotated key) (hfits : Fits key)
    (hne : key ≠ "") (hhit : (c.entries w)[entryName key]? = some (.file content t)) :
    (Store.caching name c inner).localFile key w = .ok (.found (.entry c.dir (entryName key)))
      (c.refill w (w.now + 1) ((c.entries w).insert (entryName key) (.file content w.now))) := by
  have hfetch : c.fetch key (inner.readInto key) w = .ok (some (.entry c.dir (entryName key))) _ :=
    run_bind_ok (touch_hit hw hfits hne hhit) _
  rw [Store.localFile_caching, if_neg hplain]
  exact run_bind_ok hfetch _

namespace Store

/-- Whichever way it takes, a copy that fails or finds nothing leaves what a look-up leaves. -/
theorem copyFrom_any (dest source : Store) (key sourceKey : String) (move : Bool)
    (hw : w.Effectless) :
    Ensures (dest.copyFrom key source sourceKey move) w
      (fun k? v => source.EndsSafe sourceKey dest.base key w (source.LookedUp sourceKey w) k? v)
      fun _ v => source.LookedUp sourceKey w v := by
  rcases copyFrom_way dest source key sourceKey move with
    ⟨r, o, hr, -, -, -, hrun⟩ | ⟨-, hrun⟩
  · rw [hrun, hr]
    refine (r.copyInside_any o source key sourceKey move (hw r.container)).mono ?_
      fun _ _ h => .of_looks h
    rintro k? v (⟨rfl, hv⟩ | h)
    · exact .inl ⟨rfl, .of_looks hv⟩
    · exact .inr h
  · rw [hrun]
    exact dest.base.copyThrough_any source key sourceKey move hw

/-! ## Failures -/

/-- **Failures.** Whatever requests fail, without being carried out, a write that fails leaves every
object and every cache entry. A copy or a move that fails, or finds nothing to copy, leaves every
object, and in the caches of the source what a look-up of its key leaves; if they are coherent, that
is a complete entry of what the source holds, and they stay coherent. A copy or a move between
different objects, however it ends, leaves the object of the source unless the target holds its key,
as long as no request falsely says that an object is absent or present. -/
theorem failed_keeps (w : World) (heffectless : w.Effectless) :
    (∀ (s : Store) (request : WriteRequest) (e : BlobError) (v : World),
      s.write request w = .error e v →
        w.Keeps v ∧ ∀ c : FileCache, c.entries v = c.entries w) ∧
    ∀ (dest source : Store) (key sourceKey : String) (move : Bool),
      (∀ v, (dest.copyFrom key source sourceKey move w = .ok none v ∨
          ∃ e, dest.copyFrom key source sourceKey move w = .error e v) →
        w.Keeps v ∧ source.LookedUp sourceKey w v ∧
        (source.CoherentAt w sourceKey →
          source.serves? w sourceKey = source.base.hold? w sourceKey ∧
          ∀ other, source.CoherentAt w other → source.CoherentAt v other)) ∧
      (w.Honest → dest.place key ≠ source.place sourceKey →
        let v := w.after (dest.copyFrom key source sourceKey move)
        v.bytesAt? (source.place sourceKey) = w.bytesAt? (source.place sourceKey) ∨
          v.bytesAt? (dest.place key) ≠ none) := by
  refine ⟨fun s request e v hrun => ?_, fun dest source key sourceKey move => ?_⟩
  · have hv := (s.write_any request heffectless).error_of_eq hrun
    exact ⟨hv.keeps, fun c => hv.entries c List.not_mem_nil⟩
  have hcopy := copyFrom_any dest source key sourceKey move heffectless
  constructor
  · intro v hrun
    have hv : source.LookedUp sourceKey w v := by
      rcases hrun with hrun | ⟨e, hrun⟩
      · rcases hcopy.ok_of_eq hrun with ⟨-, hv⟩ | ⟨hkey, -⟩
        · exact hv
        · exact absurd hkey nofun
      · exact hcopy.error_of_eq hrun
    exact ⟨hv.warms.keeps, hv, fun hkey =>
      ⟨serves?_of_coherentAt hkey, fun other => hv.coherentAt hkey⟩⟩
  · intro hw hne
    refine World.after_spec (P := fun v => v.bytesAt? (source.place sourceKey) =
      w.bytesAt? (source.place sourceKey) ∨ v.bytesAt? (dest.place key) ≠ none) (hcopy.mono ?_ ?_)
    · rintro k? v (⟨-, hv⟩ | ⟨-, hsafe⟩)
      · exact .inl (hv.warms.keeps _)
      · exact hsafe hw hne
    · exact fun _ v hv => .inl (hv.warms.keeps _)

/-- A container that refuses to take objects. A write to it leaves nothing behind, and a move to it
out of a store with a cache only the mark on the entry that it looked up. -/
theorem failed_keeps_refused :
    let m : MemoryStore := { name := "inbox", memory := "inbox", tempDir := .scratch "temps" }
    let cache : FileCache := ⟨"cache", ⟨10, 2, 0⟩⟩
    let s : Store := .caching "cached" cache (.memory m)
    let r : RemoteStore := {
      name := "vault"
      location := ⟨"account", "vault"⟩
      container := "vault"
      space := .ofText "cas"
      tempDir := .scratch "temps" }
    let entries : CacheEntries := ExtTreeMap.insert ∅ (entryName "a") (.file [1, 2] 0)
    let w : World := {
      containers := ExtTreeMap.insert ∅ "vault" { faults := [{ kind := .put }] }
      memories := ExtTreeMap.insert ∅ "inbox" (ExtTreeMap.insert ∅ "a" [1, 2])
      caches := ExtTreeMap.insert ∅ "cache" { entries }
      files := ExtTreeMap.insert ∅ "file" (.file [7]) }
    w.Effectless ∧
    (∃ e v, (remote r).write { source := .file (.caller "file"), key? := some "k" } w = .error e v ∧
      v.bytesAt? (.object "vault" "cas/k") = none) ∧
    ∃ e v, (remote r).copyFrom "k" s "a" true w = .error e v ∧
      v.bytesAt? (.object "vault" "cas/k") = none ∧ v.bytesAt? (.blob "inbox" "a") = some [1, 2] ∧
      s.CoherentAt v "a" := by
  intro m cache s r entries w
  let c : Container := { faults := [{ kind := .put }] }
  have hvault : w.containers["vault"]? = some c := ExtTreeMap.getElem?_insert_self
  have hdir : w.caches["cache"]? = some { entries } := ExtTreeMap.getElem?_insert_self
  -- the container refuses every file
  have hrefused : ∀ {x : World} {file : LocalPath} {content : Bytes},
      x.containers = w.containers → x.read file = .ok content → content.length ≤ 8388608 →
      r.storeFile "k" file content.length x = .error (.backend (.container .generic)) x :=
    fun hx hread hlength => RemoteStore.storeFile_refused (c := c) (e := .generic)
      ((congrArg (·["vault"]?) hx).trans hvault) rfl rfl nofun hread hlength
  have hwrite : (remote r).write { source := .file (.caller "file"), key? := some "k" } w =
      .error (.backend (.container .generic)) w := by
    have hfile : w.read (.caller "file") = .ok [7] := by
      unfold World.read
      dsimp only
      rw [show w.files["file"]? = some (.file [7]) from ExtTreeMap.getElem?_insert_self]
    exact (PlainStore.remote r).write_refused hfile (hrefused rfl hfile (by decide))
  -- what is in the cache and behind it, and where
  have hentry : (cache.entries w)[entryName "a"]? = some (.file [1, 2] 0) := by
    rw [FileCache.entries_eq (c := cache) hdir]
    exact ExtTreeMap.getElem?_insert_self
  have hheld : (PlainStore.memory m).hold? w "a" = some [1, 2] := by
    show (w.memory "inbox")["a"]? = _
    rw [show w.memory "inbox" = _ from ExtTreeMap.getD_insert_self]
    exact ExtTreeMap.getElem?_insert_self
  have hcache : cache.CoherentAt (.memory m) w "a" := FileCache.coherentAt_of_entry hdir hheld
  have hcoherent : s.CoherentAt w "a" :=
    coherentAt_caching.2 ⟨hcache, fun _ hc => absurd hc List.not_mem_nil⟩
  have htarget : (remote r).place "k" = .object "vault" "cas/k" :=
    congrArg (Place.object "vault") (by decide)
  have hfree : w.bytesAt? (.object "vault" "cas/k") = none := by
    rw [World.bytesAt?_object, show w.container "vault" = c from ExtTreeMap.getD_insert_self]
    exact ExtTreeMap.getElem?_empty
  -- the entry is marked as used before the container refuses the file
  have hlocal := FileCache.localFile_hit "cached" (.memory m) hcache.intact (by decide)
    (by decide) (by decide) hentry
  generalize hv : cache.refill w (w.now + 1) _ = v at hlocal
  have hread : v.read (.entry "cache" (entryName "a")) = .ok [1, 2] := by
    have hmarked : (cache.entries v)[entryName "a"]? = some (.file [1, 2] w.now) := by
      rw [← hv, FileCache.entries_refill hdir]
      exact ExtTreeMap.getElem?_insert_self
    exact FileCache.read_entry hmarked
  have hcontainers : v.containers = w.containers := by
    rw [← hv, FileCache.refill_rest]
  have hcopy : (remote r).copyFrom "k" s "a" true w =
      .error (.backend (.container .generic)) v :=
    RemoteStore.copyThrough_refused hlocal hread (hrefused hcontainers hread (by decide)) true
  have hhonest : w.Honest := by
    refine World.forall_container rfl (fun f hf => ?_) fun f hf => absurd hf List.not_mem_nil
    obtain rfl := List.mem_singleton.1 hf
    exact ⟨rfl, fun _ => nofun, fun _ => nofun⟩
  have heffectless : w.Effectless := fun name => (hhonest name).effectless
  obtain ⟨hfails, hcopies⟩ := failed_keeps w heffectless
  obtain ⟨hafter, hmove⟩ := hcopies (remote r) s "k" "a" true
  refine ⟨heffectless, ⟨_, w, hwrite, ?_⟩, _, v, hcopy, ?_, ?_, ?_⟩
  · exact ((hfails _ _ _ _ hwrite).1 _).trans hfree
  · exact ((hafter v (.inr ⟨_, hcopy⟩)).1 _).trans hfree
  · have hne : (remote r).place "k" ≠ s.place "a" := by
      rw [htarget]
      exact nofun
    have hkept := hmove hhonest hne
    rw [show w.after _ = v from by rw [World.after, hcopy]] at hkept
    rcases hkept with hkept | hlost
    · exact hkept.trans ((PlainStore.bytesAt?_place _ _ _).trans hheld)
    · rw [htarget] at hlost
      exact absurd (((hafter v (.inr ⟨_, hcopy⟩)).1 _).trans hfree) hlost
  · exact ((hafter v (.inr ⟨_, hcopy⟩)).2.2 hcoherent).2 "a" hcoherent

end Store

end BlobVault
