import BlobVault.Proofs.Catalog
import BlobVault.Proofs.Copying.Pairs

/-!
# Copying and moving a blob onto itself

Two keys, of two stores with or without caches, may lead to one object. A copy from the one to the
other has nothing to do. Inside a container this is noticed: the paths are compared, and nothing is
touched. Through a local file it is not: the target takes the content for one that it has, and a
move then deletes it.

1. `RemoteStore.copyInside_self`: inside a container, whatever fails.
2. `Store.TransferredSelf`: what is left if nothing was done (`of_looks`), and if the target took
   its own content through a local file (`Store.Stored.transferredSelf`).
3. `Store.copyFrom_self`: copies and moves of a blob onto itself.
-/

namespace BlobVault

open Std (ExtTreeMap)
open KeyStrategy (Accepted)
open FileCache (Fits)

namespace RemoteStore

variable {r o : RemoteStore} {key sourceKey : String} {w : World}

/-- Inside a container a blob that is copied or moved onto itself is only looked at, whatever
fails. -/
theorem copyInside_self (hpath : o.pathFor sourceKey = r.pathFor key) (source : Store)
    (move : Bool) (w : World) :
    Ensures (r.copyInside key source o sourceKey move) w (fun _ v => w.Looks v)
      fun _ v => w.Looks v := by
  have hsize : Ensures (o.size? sourceKey) w (fun _ v => w.Looks v) fun _ v => w.Looks v :=
    (PlainStore.remote o).catalog_size?_looks sourceKey w
  unfold copyInside
  refine Ensures.bind hsize fun size? v hv => ?_
  cases size? with
  | none => exact Ensures.pure hv
  | some size =>
    dsimp only
    rw [if_pos hpath]
    exact Ensures.pure hv

/-- It is found where no fault strikes. -/
theorem copyInside_self_run (hpath : o.pathFor sourceKey = r.pathFor key) (source : Store)
    (move : Bool) (hw : (PlainStore.remote o).Quiet w)
    (hheld : (PlainStore.remote o).hold? w sourceKey ≠ none) :
    ∃ v, r.copyInside key source o sourceKey move w = .ok (some key) v ∧ w.Looks v := by
  obtain ⟨v, hsize, hv⟩ := PlainStore.size?_catalog hw sourceKey
  obtain ⟨content, hcontent⟩ := Option.ne_none_iff_exists'.1 hheld
  rw [hcontent] at hsize
  have hrun : Ensures (r.copyInside key source o sourceKey move) w
      (fun k? u => k? = some key ∧ w.Looks u) NoError := by
    unfold copyInside
    refine Ensures.bind_ok hsize ?_
    rw [if_neg nofun]
    dsimp only
    rw [if_pos hpath]
    exact Ensures.pure ⟨rfl, hv⟩
  obtain ⟨k?, u, hok, rfl, hu⟩ := hrun.exists_ok
  exact ⟨u, hok, hu⟩

end RemoteStore

namespace Store

variable {dest source : Store} {q : PlainStore} {w : World} {key sourceKey : String}
  {content : Bytes}

/-- Through a local file a blob that the source holds is stored, and a move then deletes it. -/
theorem copyThrough_held (hquiet : w.Quiet) (h : source.HandsOn w q.tempDir sourceKey)
    (hhold : source.base.hold? w sourceKey = some content) (key : String) (move : Bool) :
    ∃ x v, q.copyThrough key source sourceKey move w = .ok (some key) v ∧
      source.Stored q key content w x ∧ source.Finished sourceKey move x v := by
  obtain ⟨k?, v, hrun, ⟨-, hnone, -⟩ | ⟨rfl, x, ⟨bytes, hbytes, hx⟩, hv⟩⟩ :=
    (copyThrough_spec hquiet h key move).exists_ok
  · rw [hhold] at hnone
    exact absurd hnone nofun
  · rw [hhold] at hbytes
    obtain rfl := Option.some.inj hbytes
    exact ⟨x, v, hrun, hx, hv⟩

/-- A cache has no room for a long key, and no blob is handed on. -/
theorem withFile_long {α : Type} (hcached : source.caches ≠ []) (hsource : Accepted sourceKey)
    (hlong : ¬ Fits sourceKey) (hw : source.CoherentAt w sourceKey) (t : TempDir)
    (use : LocalPath → Action α) :
    source.withFile sourceKey t use w = .error (.io .invalidFilename) w := by
  cases source with
  | memory m => exact absurd rfl hcached
  | remote r => exact absurd rfl hcached
  | caching name cache inner =>
    have htouch := FileCache.touch_long (coherentAt_caching.1 hw).1.intact hlong
    have hfetch : (Store.caching name cache inner).localFile sourceKey w =
        .error (.io .invalidFilename) w := by
      rw [localFile_caching, if_neg hsource.not_isAnnotated]
      unfold FileCache.fetch
      exact run_bind_error (run_bind_error htouch _) _
    unfold withFile
    exact run_bind_error hfetch _

/-- The blob is deleted when it is copied or moved onto itself: in a move that goes through a local
file. -/
def loses (dest source : Store) (move : Bool) : Bool := move && !dest.copiesInside source

/-- What is left when content was copied or moved onto itself. No other object has changed. The
object itself is gone if it is deleted; else it is as before, and the target delivers it as before.
-/
structure TransferredSelf (dest : Store) (key : String) (source : Store) (move : Bool)
    (content : Bytes) (w v : World) : Prop where
  others : ∀ place, place ≠ dest.place key → v.bytesAt? place = w.bytesAt? place
  target : v.bytesAt? (dest.place key) = if dest.loses source move then none else some content
  delivers : dest.loses source move = false → dest.OwnCaches source → Accepted key ∧ Fits key →
    dest.CoherentAt w key → dest.Delivers v key content

/-- What lies at the place of a key is delivered. -/
theorem delivers_of_bytesAt? (hdirs : dest.dirs.Nodup) (hkey : Accepted key ∧ Fits key)
    (hw : dest.CoherentAt w key) (hquiet : w.Quiet)
    (hheld : w.bytesAt? (dest.place key) = some content) : dest.Delivers w key content :=
  dest.delivers hdirs hkey.1 hkey.2 hw hquiet
    ((PlainStore.bytesAt?_place _ _ _).symm.trans hheld)

/-- Nothing was done. -/
theorem TransferredSelf.of_looks {v : World} {move : Bool} (hstays : dest.loses source move = false)
    (hquiet : w.Quiet) (hheld : w.bytesAt? (dest.place key) = some content) (hv : w.Looks v) :
    dest.TransferredSelf key source move content w v := by
  have hkept : v.bytesAt? (dest.place key) = some content := (hv.keeps _).trans hheld
  refine ⟨fun place _ => hv.keeps place, ?_, fun _ hcaches hkey hdest => ?_⟩
  · rw [hstays, hkept]
    rfl
  · exact delivers_of_bytesAt? hcaches.ofDest hkey (hdest.of_looks hv) (hv.follows.quiet hquiet)
      hkept

/-- The target took its own content, and a move deleted it. -/
theorem Stored.transferredSelf {x v : World} {move : Bool}
    (hx : source.Stored dest.base key content w x) (hv : source.Finished sourceKey move x v)
    (hloses : dest.loses source move = move) (hquiet : w.Quiet)
    (hsame : dest.place key = source.place sourceKey)
    (hheld : w.bytesAt? (dest.place key) = some content) :
    dest.TransferredSelf key source move content w v := by
  have hkept : x.bytesAt? (dest.place key) = some content :=
    hx.bytesAt?_self.trans (congrArg (fun held? => some (held?.getD content)) hheld)
  refine ⟨fun place hplace => ?_, ?_, ?_⟩
  · rw [hv.bytesAt?_of_ne (hsame ▸ hplace), hx.bytesAt?_of_ne hplace]
  · rw [hloses, ← hkept, hsame]
    exact hv.bytesAt?_self
  · intro hstays hcaches hkey hdest
    rw [hloses] at hstays
    subst hstays
    obtain rfl : v = x := hv
    exact delivers_of_bytesAt? hcaches.ofDest hkey (hx.coherentAt hcaches.apart hdest)
      (hx.quiet hquiet) hkept

/-- **Copying and moving onto itself.** Take two stores of any kind, with any caches in front of
them, and two keys that lead to one object.

* If the copy goes inside a container it changes no object, whatever fails.
* Where no fault strikes and the object is there, the copy goes through and gives the key, through a
  local file as long as the source can hand the blob on. No other object changes. The object itself
  is lost in a move through a local file; in all other cases it stays, and the target delivers it as
  before.
* Through a local file, a source with a cache fails for keys that are too long for it. -/
theorem copyFrom_self (dest source : Store) {key sourceKey : String}
    (hsame : dest.place key = source.place sourceKey) (move : Bool) (w : World) :
    (dest.copiesInside source = true →
      w.Keeps (w.after (dest.copyFrom key source sourceKey move))) ∧
    (∀ content, w.Quiet → w.bytesAt? (dest.place key) = some content →
      dest.copiesInside source = true ∨ source.HandsOn w dest.base.tempDir sourceKey →
      ∃ v, dest.copyFrom key source sourceKey move w = .ok (some key) v ∧
        dest.TransferredSelf key source move content w v) ∧
    (dest.copiesInside source = false → source.caches ≠ [] → Accepted sourceKey →
      ¬ Fits sourceKey → source.CoherentAt w sourceKey →
      dest.copyFrom key source sourceKey move w = .error (.io .invalidFilename) w) := by
  have hhold : ∀ content, w.bytesAt? (dest.place key) = some content →
      source.base.hold? w sourceKey = some content := by
    intro content hheld
    rw [← PlainStore.bytesAt?_place, ← hheld, hsame]
    rfl
  rcases copyFrom_way dest source key sourceKey move with
    ⟨r, o, hr, ho, -, hinside, hrun⟩ | ⟨hinside, hrun⟩
  · have hpath : o.pathFor sourceKey = r.pathFor key := by
      unfold place at hsame
      rw [hr, ho, PlainStore.place_remote_eq_iff] at hsame
      exact hsame.2.symm
    rw [hrun]
    refine ⟨fun _ => ?_, fun content hquiet hheld _ => ?_, fun hthrough => ?_⟩
    · exact World.after_spec ((RemoteStore.copyInside_self hpath source move w).mono
        (fun _ _ h => h.keeps) fun _ _ h => h.keeps)
    · have hfound := hhold content hheld
      rw [ho] at hfound
      obtain ⟨v, hok, hv⟩ := RemoteStore.copyInside_self_run hpath source move
        (.of_world hquiet (.remote o)) (by rw [hfound]; exact nofun)
      have hstays : dest.loses source move = false := by simp [loses, hinside]
      exact ⟨v, hok, .of_looks hstays hquiet hheld hv⟩
    · rw [hinside] at hthrough
      exact absurd hthrough nofun
  · have hloses : dest.loses source move = move := by simp [loses, hinside]
    rw [hinside, hrun]
    refine ⟨nofun, fun content hquiet hheld hhands => ?_, fun _ hcached hkey hlong hw => ?_⟩
    · obtain ⟨x, v, hok, hx, hv⟩ := copyThrough_held hquiet (hhands.resolve_left nofun)
        (hhold content hheld) key move
      exact ⟨v, hok, hx.transferredSelf hv hloses hquiet hsame hheld⟩
    · have hfile := fun (t : TempDir) (use : LocalPath → Action Unit) =>
        withFile_long hcached hkey hlong hw t use
      cases dest.base with
      | memory m => exact run_bind_error (hfile _ _) _
      | remote r => exact run_bind_error (hfile _ _) _

/-- A move from a remote store, under another name of the same object, into the same store with a
cache in front of it. -/
theorem copyFrom_self_inside :
    let r : RemoteStore := {
      name := "vault"
      location := ⟨"account", "box"⟩
      container := "box"
      tempDir := .scratch "temps" }
    let dest : Store := .caching "cached" ⟨"cache", ⟨10, 2, 0⟩⟩ (.remote r)
    let w : World := ({} : World).setContainer "box" { objects := ExtTreeMap.insert ∅ "k" [120] }
    w.Quiet ∧ dest.place "k" = (Store.remote r).place "/k" ∧
      ∃ v, dest.copyFrom "k" (.remote r) "/k" true w = .ok (some "k") v ∧
        v.bytesAt? (.object "box" "k") = some [120] := by
  intro r dest w
  have hbox : w.container "box" = { objects := ExtTreeMap.insert ∅ "k" [120] } :=
    World.container_setContainer_self _ _ _
  have hquiet : w.Quiet := World.quiet_of_container rfl rfl
  have hdest : dest.place "k" = .object "box" "k" := congrArg (Place.object "box") (by decide)
  have hsource : (Store.remote r).place "/k" = .object "box" "k" :=
    congrArg (Place.object "box") (by decide)
  have hheld : w.bytesAt? (dest.place "k") = some [120] := by
    rw [hdest, World.bytesAt?_object, hbox]
    exact ExtTreeMap.getElem?_insert_self
  have hinside : dest.copiesInside (.remote r) = true := by decide
  have hsame := hdest.trans hsource.symm
  obtain ⟨v, hrun, hv⟩ :=
    (copyFrom_self dest (.remote r) hsame true w).2.1 [120] hquiet hheld (.inl hinside)
  have hstays : dest.loses (.remote r) true = false := by decide
  have hkept := hv.target
  rw [hstays, hdest] at hkept
  exact ⟨hquiet, hsame, v, hrun, hkept⟩

/-- In a memory store, a blob that is moved onto itself is gone. -/
theorem lost_in_memory :
    let m : MemoryStore := { name := "vault", memory := "vault", tempDir := .scratch "temps" }
    let w : World := {
      memories := ExtTreeMap.insert ∅ "vault" (ExtTreeMap.insert ∅ "k" [120])
      scratch := ExtTreeMap.insert ∅ "temps" ∅ }
    (PlainStore.memory m).hold? w "k" = some [120] ∧
      ∃ v, (Store.memory m).copyFrom "k" (.memory m) "k" true w = .ok (some "k") v ∧
        (PlainStore.memory m).hold? v "k" = none := by
  intro m w
  have hquiet : w.Quiet := World.quiet_of_containers rfl
  have hheld : (PlainStore.memory m).hold? w "k" = some [120] := by
    show (w.memory "vault")["k"]? = _
    rw [show w.memory "vault" = ExtTreeMap.insert ∅ "k" [120] from
      World.memory_setMemory_self { w with memories := ∅ } "vault" _]
    exact ExtTreeMap.getElem?_insert_self
  have hhands : (Store.memory m).HandsOn w (.scratch "temps") "k" := {
    temps := ⟨∅, ExtTreeMap.getElem?_insert_self⟩
    whole := by decide
    cached := fun hne => absurd rfl hne
    dirs := List.nodup_nil
    coherent := fun _ hc => absurd hc List.not_mem_nil }
  have hplace := PlainStore.bytesAt?_place (.memory m)
  obtain ⟨x, v, hrun, hx, hv⟩ := copyThrough_held (q := .memory m) hquiet hhands hheld "k" true
  have hlost : (Store.memory m).TransferredSelf "k" (.memory m) true [120] w v :=
    hx.transferredSelf hv rfl hquiet rfl ((hplace w "k").trans hheld)
  exact ⟨hheld, v, hrun, (hplace v "k").symm.trans hlost.target⟩

end Store

end BlobVault
