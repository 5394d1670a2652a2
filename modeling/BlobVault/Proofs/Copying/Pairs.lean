import BlobVault.Proofs.Caching.Copy
import BlobVault.Proofs.Copying.Reading

/-!
# Copying and moving between any two stores

A copy takes one of three ways: inside a container, through a local file into a container, or
through a local file into a memory. Whichever it is, and however many caches are in front of the two
stores, it reads the source, lets the target accept the content, and a move then deletes from the
source.

1. `Store.Stored`, `Store.Deleted`: what the two steps do to bytes and to caches.
2. `Store.copyFrom_way`: the way of a copy; `Store.withFile_spec`, `Store.copyThrough_spec`,
   `Store.copy_spec`: one law for all of them.
3. `Store.copyFrom_transfers`: copies and moves as their callers see them.
-/

namespace BlobVault

open Std (ExtTreeMap)
open KeyStrategy (Accepted)
open FileCache (Fits Thins entryName)

namespace Store

variable {dest source s : Store} {q : PlainStore} {w v x : World} {key sourceKey : String}
  {content : Bytes}

/-! ## The steps of a copy -/

/-- What is left when a source was read and content of it accepted under a key of the target. -/
def Stored (source : Store) (q : PlainStore) (key : String) (content : Bytes) (w x : World) :
    Prop :=
  ∃ u, source.Warmed w u ∧ (q.accept u key content).Looks x

theorem CoherentAt.accept (h : s.CoherentAt w key) (q : PlainStore) (other : String)
    (content : Bytes) : s.CoherentAt (q.accept w other content) key := by
  intro c hc
  refine (h c hc).of_entries (q.entries_accept c w other content) ?_ fun held hheld => ?_
  · rw [PlainStore.temps?_accept]
    exact (h c hc).intact.temps
  · exact PlainStore.hold?_of_fills (q.fills_accept w other content) s.base hheld

namespace Stored

variable (h : source.Stored q key content w x)

include h

theorem quiet (hw : w.Quiet) : x.Quiet := by
  obtain ⟨u, hu, hx⟩ := h
  exact hx.follows.quiet ((q.follows_accept u key content).quiet (hu.warms.quiet hw))

theorem bytesAt?_self :
    x.bytesAt? (q.place key) = some ((w.bytesAt? (q.place key)).getD content) := by
  obtain ⟨u, hu, hx⟩ := h
  rw [hx.keeps, ← hu.warms.keeps, PlainStore.bytesAt?_place, PlainStore.bytesAt?_place,
    PlainStore.hold?_accept_self]

theorem bytesAt?_of_ne {place : Place} (hne : place ≠ q.place key) :
    x.bytesAt? place = w.bytesAt? place := by
  obtain ⟨u, hu, hx⟩ := h
  rw [hx.keeps, PlainStore.bytesAt?_accept_of_ne q u content hne, hu.warms.keeps]

/-- Caches stay coherent, those of the source and those that the source does not use. -/
theorem coherentAt (hs : s = source ∨ s.dirs.Disjoint source.dirs) {other : String}
    (hw : s.CoherentAt w other) : s.CoherentAt x other := by
  obtain ⟨u, hu, hx⟩ := h
  have hread : s.CoherentAt u other := by
    rcases hs with rfl | hs
    · exact hu.coherent other hw
    · exact hw.of_warms hu.warms fun dir hdir hdir' => hs hdir hdir'
  exact (hread.accept q key content).of_looks hx

end Stored

namespace Deleted

variable (h : source.Deleted key w v)

include h

theorem quiet (hw : w.Quiet) : v.Quiet := by
  obtain ⟨u, hu, hv⟩ := h
  exact hv.follows.quiet ((source.base.follows_drop u key).quiet (hu.warms.quiet hw))

theorem bytesAt?_self : v.bytesAt? (source.place key) = none := by
  obtain ⟨u, hu, hv⟩ := h
  rw [hv.keeps]
  exact (PlainStore.bytesAt?_place _ _ _).trans PlainStore.hold?_drop_self

theorem bytesAt?_of_ne {place : Place} (hne : place ≠ source.place key) :
    v.bytesAt? place = w.bytesAt? place := by
  obtain ⟨u, hu, hv⟩ := h
  rw [hv.keeps, PlainStore.bytesAt?_drop_of_ne source.base u hne, hu.warms.keeps]

theorem hold?_of_ne {other : String} (hne : s.place other ≠ source.place key) :
    s.base.hold? v other = s.base.hold? w other := by
  rw [← PlainStore.bytesAt?_place, ← PlainStore.bytesAt?_place]
  exact h.bytesAt?_of_ne hne

/-- No cache of the source has an entry of the key, and no other one of its entries is new. -/
theorem caches (c : FileCache) (hc : c ∈ source.caches) (hw : c.Intact w) :
    c.Intact v ∧ Thins (c.entries w) (c.entries v) ∧ (c.entries v)[entryName key]? = none := by
  obtain ⟨u, hu, hv⟩ := h
  obtain ⟨hintact, hthins, hnone⟩ := hu.caches c hc hw
  have hlook := World.Warms.of_looks hv []
  rw [← source.base.entries_drop c u key, ← hlook.entries c List.not_mem_nil] at hthins hnone
  refine ⟨?_, hthins, hnone⟩
  exact (source.base.intact_drop hintact key).of_warms hlook List.not_mem_nil

/-- A cache in a directory that the source does not use is as before. -/
theorem caches_of_notMem (c : FileCache) (hc : c.dir ∉ source.dirs) (hw : c.Intact w) :
    c.Intact v ∧ Thins (c.entries w) (c.entries v) := by
  obtain ⟨u, hu, hv⟩ := h
  have hlook := World.Warms.of_looks hv []
  have hdrop := source.base.intact_drop (hw.of_warms hu.warms hc) key
  refine ⟨hdrop.of_warms hlook List.not_mem_nil, ?_⟩
  rw [hlook.entries c List.not_mem_nil, PlainStore.entries_drop, hu.warms.entries c hc]
  exact fun _ _ hnode => hnode

/-- Caches stay coherent at every key that is no other name of what was deleted. -/
theorem coherentAt (hs : s = source ∨ s.dirs.Disjoint source.dirs) {other : String}
    (hw : s.CoherentAt w other)
    (hother : s.place other = source.place key → s = source ∧ other = key) :
    s.CoherentAt v other := by
  intro c hc
  obtain ⟨hintact, hopens, hheld⟩ := hw c hc
  have hcache : c.Intact v ∧ Thins (c.entries w) (c.entries v) := by
    rcases hs with rfl | hs
    · obtain ⟨hv, hthins, -⟩ := h.caches c hc hintact
      exact ⟨hv, hthins⟩
    · exact h.caches_of_notMem c (fun hdir => hs (List.mem_map_of_mem hc) hdir) hintact
  have hopen : ¬ c.Locked v other := fun ⟨content, t, hnode⟩ =>
    hopens ⟨content, t, hcache.2 _ _ hnode⟩
  refine ⟨hcache.1, hopen, fun content t hnode => ?_⟩
  by_cases hplace : s.place other = source.place key
  · -- the key itself, of which there is no entry any more
    obtain ⟨rfl, rfl⟩ := hother hplace
    obtain ⟨-, -, hnone⟩ := h.caches c hc hintact
    rw [hnone] at hnode
    exact absurd hnode nofun
  · rw [h.hold?_of_ne hplace]
    exact hheld content t (hcache.2 _ _ hnode)

end Deleted

/-- The end of a copy: nothing more, or for a move the deletion of the source. -/
def Finished (source : Store) (sourceKey : String) (move : Bool) (x v : World) : Prop :=
  if move then source.Deleted sourceKey x v else v = x

namespace Finished

variable {move : Bool} (h : source.Finished key move w v)

include h

theorem quiet (hw : w.Quiet) : v.Quiet := by
  cases move with
  | true => exact Deleted.quiet h hw
  | false => rwa [show v = w from h]

theorem bytesAt?_self :
    v.bytesAt? (source.place key) = if move then none else w.bytesAt? (source.place key) := by
  cases move with
  | true => exact Deleted.bytesAt?_self h
  | false =>
    rw [show v = w from h]
    rfl

theorem bytesAt?_of_ne {place : Place} (hne : place ≠ source.place key) :
    v.bytesAt? place = w.bytesAt? place := by
  cases move with
  | true => exact Deleted.bytesAt?_of_ne h hne
  | false => rw [show v = w from h]

theorem coherentAt (hs : s = source ∨ s.dirs.Disjoint source.dirs) {other : String}
    (hw : s.CoherentAt w other)
    (hother : move = true → s.place other = source.place key → s = source ∧ other = key) :
    s.CoherentAt v other := by
  cases move with
  | true => exact Deleted.coherentAt h hs hw (hother rfl)
  | false => rwa [show v = w from h]

end Finished

/-! ## The ways of a copy -/

/-- Nothing stands in the way of handing the blob of a key on in a local file: there is a directory
for temporary files, the key asks for the whole blob, and the caches have room for it and are
coherent. -/
structure HandsOn (source : Store) (w : World) (t : TempDir) (sourceKey : String) : Prop where
  temps : ∃ files, w.temps? t = some files
  whole : ByteRange.splitKey sourceKey = (sourceKey, none)
  cached : source.caches ≠ [] → Accepted sourceKey ∧ Fits sourceKey
  dirs : source.dirs.Nodup
  coherent : source.CoherentAt w sourceKey

/-- A store hands its blob on in a local file. -/
theorem withFile_spec (hquiet : w.Quiet) {t : TempDir} (h : source.HandsOn w t sourceKey)
    (key : String) :
    Ensures (source.withFile sourceKey t (q.upload key)) w
      (fun done? x => (done? = none ∧ source.base.hold? w sourceKey = none ∧ w.Looks x) ∨
        (done? = some () ∧ ∃ content, source.base.hold? w sourceKey = some content ∧
          source.Stored q key content w x)) NoError := by
  have hplain : ∀ p : PlainStore, Ensures (p.toStore.withFile sourceKey t (q.upload key)) w
      (fun done? x => (done? = none ∧ p.hold? w sourceKey = none ∧ w.Looks x) ∨
        (done? = some () ∧ ∃ content, p.hold? w sourceKey = some content ∧
          p.toStore.Stored q key content w x)) NoError := by
    intro p
    have hfile := PlainStore.withFile_spec (.of_world hquiet p) (.of_world hquiet q) h.temps
      sourceKey key
    rw [PlainStore.asked?_of_splitKey h.whole] at hfile
    refine hfile.mono ?_ fun _ _ h => h
    rintro done? x (h | ⟨hdone, content, hheld, hx⟩)
    · exact .inl h
    · exact .inr ⟨hdone, content, hheld, w, .of_looks (.refl w), hx⟩
  cases source with
  | memory m => exact hplain (.memory m)
  | remote r => exact hplain (.remote r)
  | caching name cache inner =>
    obtain ⟨hsource, hfits⟩ := h.cached (List.cons_ne_nil _ _)
    unfold withFile
    refine Ensures.bind (localFile_spec h.dirs hsource hfits h.coherent hquiet) ?_
    rintro lookup u (⟨content, path, rfl, hheld, hu, hread⟩ | ⟨rfl, hnone, hu⟩)
    · have hq : q.Quiet u := .of_world (hu.warms.quiet hquiet) q
      refine Ensures.bind (PlainStore.upload_spec hq hread key) fun _ x hx => ?_
      exact Ensures.pure (.inr ⟨rfl, content, hheld, u, hu, hx⟩)
    · exact Ensures.pure (.inl ⟨rfl, hnone, hu⟩)

/-- The source is deleted from, once the target has accepted its content. -/
theorem Stored.delete_spec (hx : source.Stored q key content w x) (hquiet : w.Quiet)
    (hdirs : source.dirs.Nodup) (hw : source.CoherentAt w sourceKey) :
    Ensures (source.delete sourceKey) x (fun _ v => source.Deleted sourceKey x v) NoError := by
  have hcoherent := hx.coherentAt (.inl rfl) hw
  exact source.delete_spec hdirs (fun c hc => (hcoherent c hc).intact) (hx.quiet hquiet) sourceKey

/-- Through a local file, a copy reads the source and lets the target accept the content, and a move
then deletes. -/
theorem copyThrough_spec (hquiet : w.Quiet) (h : source.HandsOn w q.tempDir sourceKey)
    (key : String) (move : Bool) :
    Ensures (q.copyThrough key source sourceKey move) w
      (fun k? v => (k? = none ∧ source.base.hold? w sourceKey = none ∧ w.Looks v) ∨
        (k? = some key ∧ ∃ x, (∃ content, source.base.hold? w sourceKey = some content ∧
          source.Stored q key content w x) ∧ source.Finished sourceKey move x v)) NoError :=
  PlainStore.copyThrough_spec (withFile_spec hquiet h key) fun _ ⟨_, _, hx⟩ =>
    hx.delete_spec hquiet h.dirs h.coherent

theorem copyFrom_base (dest source : Store) (key sourceKey : String) (move : Bool) :
    dest.copyFrom key source sourceKey move =
      dest.base.toStore.copyFrom key source sourceKey move := by
  induction dest with
  | memory m => rfl
  | remote r => rfl
  | caching name cache inner ih => exact ih

theorem copiesInside_base (dest source : Store) :
    dest.copiesInside source = dest.base.toStore.copiesInside source := by
  induction dest with
  | memory m => rfl
  | remote r => rfl
  | caching name cache inner ih => exact ih

theorem base_of_remote? {o : RemoteStore} (h : source.remote? = some o) :
    source.base = .remote o := by
  induction source with
  | memory m => exact absurd h nofun
  | remote r => exact congrArg PlainStore.remote (Option.some.inj h)
  | caching name cache inner ih => exact ih h

/-- The way of a copy: inside the container that both stores have, or else through a local file. -/
theorem copyFrom_way (dest source : Store) (key sourceKey : String) (move : Bool) :
    (∃ r o, dest.base = .remote r ∧ source.base = .remote o ∧ o.location = r.location ∧
      dest.copiesInside source = true ∧
      dest.copyFrom key source sourceKey move = r.copyInside key source o sourceKey move) ∨
    (dest.copiesInside source = false ∧
      dest.copyFrom key source sourceKey move =
        dest.base.copyThrough key source sourceKey move) := by
  rw [copyFrom_base, copiesInside_base]
  cases dest.base with
  | memory m => exact .inr ⟨rfl, rfl⟩
  | remote r =>
    have hinside : (remote r).copiesInside source = r.sharesContainer source := rfl
    have hcopy : (remote r).copyFrom key source sourceKey move =
        r.copyFrom key source sourceKey move := rfl
    unfold RemoteStore.sharesContainer at hinside
    unfold RemoteStore.copyFrom at hcopy
    cases hremote : source.remote? with
    | none =>
      rw [hremote] at hinside hcopy
      exact .inr ⟨hinside, hcopy⟩
    | some o =>
      rw [hremote] at hinside hcopy
      dsimp only at hinside hcopy
      by_cases hlocation : o.location = r.location
      · rw [if_pos hlocation] at hcopy
        rw [beq_iff_eq.2 hlocation] at hinside
        exact .inl ⟨r, o, rfl, base_of_remote? hremote, hlocation, hinside, hcopy⟩
      · rw [if_neg hlocation] at hcopy
        rw [beq_eq_false_iff_ne.2 hlocation] at hinside
        exact .inr ⟨hinside, hcopy⟩

/-- On each way, a copy reads the source and lets the target accept the content, and a move then
deletes. -/
theorem copy_spec (hquiet : w.Quiet) (h : source.HandsOn w dest.base.tempDir sourceKey)
    (hsame : ∀ r o, dest.base = .remote r → source.base = .remote o → o.location = r.location →
      o.container = r.container)
    (hne : dest.place key ≠ source.place sourceKey) (move : Bool) :
    Ensures (dest.copyFrom key source sourceKey move) w
      (fun k? v => (k? = none ∧ source.base.hold? w sourceKey = none ∧ w.Looks v) ∨
        (k? = some key ∧ ∃ x, (∃ content, source.base.hold? w sourceKey = some content ∧
          source.Stored dest.base key content w x) ∧ source.Finished sourceKey move x v))
      NoError := by
  rcases copyFrom_way dest source key sourceKey move with
    ⟨r, o, hr, ho, hlocation, -, hrun⟩ | ⟨-, hrun⟩
  · have hcontainer := hsame r o hr ho hlocation
    unfold place at hne
    rw [hr, ho, Ne, PlainStore.place_remote_eq_iff] at hne
    have hpath : o.pathFor sourceKey ≠ r.pathFor key := fun heq =>
      hne ⟨hcontainer.symm, heq.symm⟩
    rw [hrun, hr, ho]
    refine (r.copyInside_spec hcontainer (hquiet r.container).honest fun x content _ hx =>
      Stored.delete_spec ⟨w, .of_looks (.refl w), hx⟩ hquiet h.dirs h.coherent).mono ?_ ?_
    · rintro k? v (h | ⟨hk, content, x, hheld, hx, hv⟩)
      · exact .inl h
      · refine .inr ⟨hk, x, ⟨content, hheld, w, .of_looks (.refl w), hx⟩, ?_⟩
        unfold Finished
        simpa only [and_iff_left hpath] using hv
    · exact fun _ _ h => h.2 (hquiet r.container)
  · rw [hrun]
    exact copyThrough_spec hquiet h key move

/-! ## Copies and moves -/

/-- Each cache directory is used by one cache of one store. -/
structure OwnCaches (dest source : Store) : Prop where
  ofDest : dest.dirs.Nodup
  ofSource : source.dirs.Nodup
  apart : dest = source ∨ dest.dirs.Disjoint source.dirs

/-- What is left when content was copied or moved. The target has it unless it had bytes of its own,
and delivers what it has. A move has taken the source away, from behind its caches and out of them.
Everything else lies where it lay, and the caches of both stores are as coherent as they were, but
for keys of which a move took the object away under another name. -/
structure Transferred (dest : Store) (key : String) (source : Store) (sourceKey : String)
    (move : Bool) (content : Bytes) (w v : World) : Prop where
  target : v.bytesAt? (dest.place key) = some ((w.bytesAt? (dest.place key)).getD content)
  delivers : dest.Delivers v key ((w.bytesAt? (dest.place key)).getD content)
  origin : v.bytesAt? (source.place sourceKey) = if move then none else some content
  forgotten : move = true → ∀ c ∈ source.caches, (c.entries v)[entryName sourceKey]? = none
  others : ∀ place, place ≠ dest.place key → place ≠ source.place sourceKey →
    v.bytesAt? place = w.bytesAt? place
  coherent : ∀ s, s = dest ∨ s = source → ∀ other,
    (move = true → s.place other = source.place sourceKey → s = source ∧ other = sourceKey) →
    s.CoherentAt w other → s.CoherentAt v other

theorem Stored.transferred (hx : source.Stored dest.base key content w x) (hquiet : w.Quiet)
    (hcaches : dest.OwnCaches source) (hkey : Accepted key ∧ Fits key)
    (hdest : dest.CoherentAt w key) (hsource : source.CoherentAt w sourceKey)
    (hheld : source.base.hold? w sourceKey = some content)
    (hne : dest.place key ≠ source.place sourceKey) {move : Bool}
    (hv : source.Finished sourceKey move x v) :
    dest.Transferred key source sourceKey move content w v := by
  have hown : ∀ s, s = dest ∨ s = source → s = source ∨ s.dirs.Disjoint source.dirs := by
    rintro s (rfl | rfl)
    · exact hcaches.apart
    · exact .inl rfl
  have hcoherent : ∀ s, s = dest ∨ s = source → ∀ other,
      (move = true → s.place other = source.place sourceKey → s = source ∧ other = sourceKey) →
      s.CoherentAt w other → s.CoherentAt v other := fun s hs other hother hw =>
    hv.coherentAt (hown s hs) (hx.coherentAt (hown s hs) hw) hother
  have htarget : v.bytesAt? (dest.place key) =
      some ((w.bytesAt? (dest.place key)).getD content) :=
    (hv.bytesAt?_of_ne hne).trans hx.bytesAt?_self
  have horigin : x.bytesAt? (source.place sourceKey) = some content := by
    rw [hx.bytesAt?_of_ne (Ne.symm hne)]
    exact (PlainStore.bytesAt?_place _ _ _).trans hheld
  refine ⟨htarget, ?_, ?_, ?_, ?_, hcoherent⟩
  · have hread := hcoherent dest (.inl rfl) key (fun _ hplace => absurd hplace hne) hdest
    refine delivers dest hcaches.ofDest hkey.1 hkey.2 hread (hv.quiet (hx.quiet hquiet)) ?_
    rw [← PlainStore.bytesAt?_place]
    exact htarget
  · rw [hv.bytesAt?_self, horigin]
  · rintro rfl c hc
    have hintact := (hx.coherentAt (.inl rfl) hsource c hc).intact
    exact (Deleted.caches hv c hc hintact).2.2
  · intro place hplace hplace'
    rw [hv.bytesAt?_of_ne hplace', hx.bytesAt?_of_ne hplace]

/-- **Copying between stores.** Without faults, a copy or a move between any two stores goes
through, whatever caches are in front of them and whichever way it takes, if the caches are coherent
at the two keys and the keys name different objects. There is no result and no change if the source
does not hold its key; otherwise the blob is transferred. -/
theorem copyFrom_transfers (dest source : Store) {w : World} (hquiet : w.Quiet)
    (hcaches : dest.OwnCaches source)
    (hsame : ∀ r o, dest.base = .remote r → source.base = .remote o → o.location = r.location →
      o.container = r.container)
    (htemp : ∃ files, w.temps? dest.base.tempDir = some files) {key sourceKey : String}
    (hkey : Accepted key ∧ Fits key) (hsourceKey : Accepted sourceKey ∧ Fits sourceKey)
    (hdest : dest.CoherentAt w key) (hsource : source.CoherentAt w sourceKey)
    (hne : dest.place key ≠ source.place sourceKey) (move : Bool) :
    (source.base.hold? w sourceKey = none →
      ∃ v, dest.copyFrom key source sourceKey move w = .ok none v ∧ w.Looks v) ∧
    ∀ content, source.base.hold? w sourceKey = some content →
      ∃ v, dest.copyFrom key source sourceKey move w = .ok (some key) v ∧
        dest.Transferred key source sourceKey move content w v := by
  have hhands : source.HandsOn w dest.base.tempDir sourceKey :=
    ⟨htemp, hsourceKey.1.splitKey, fun _ => hsourceKey, hcaches.ofSource, hsource⟩
  obtain ⟨k?, v, hrun, hend⟩ := (copy_spec hquiet hhands hsame hne move).exists_ok
  rcases hend with ⟨rfl, hnone, hv⟩ | ⟨rfl, x, ⟨content, hheld, hx⟩, hv⟩
  · refine ⟨fun _ => ⟨v, hrun, hv⟩, fun content hheld => ?_⟩
    rw [hnone] at hheld
    exact absurd hheld nofun
  · refine ⟨fun hnone => ?_, fun bytes hbytes => ⟨v, hrun, ?_⟩⟩
    · rw [hheld] at hnone
      exact absurd hnone nofun
    · rw [hheld] at hbytes
      obtain rfl := Option.some.inj hbytes
      exact hx.transferred hquiet hcaches hkey hdest hsource hheld hne hv

/-- A move inside a container, from one namespace to another, out of a store whose cache has the
blob. -/
theorem copyFrom_transfers_cached :
    let o : RemoteStore := {
      name := "inbox"
      location := ⟨"account", "box"⟩
      container := "box"
      space := .ofText "in"
      tempDir := .scratch "temps" }
    let r : RemoteStore := { o with name := "vault", space := .ofText "cas" }
    let cache : FileCache := ⟨"cache", ⟨10, 2, 0⟩⟩
    let s : Store := .caching "cached" cache (.remote o)
    let w : World := {
      containers := ExtTreeMap.insert ∅ "box" { objects := ExtTreeMap.insert ∅ "in/a" [1, 2] }
      caches := ExtTreeMap.insert ∅ "cache" {
        entries := ExtTreeMap.insert ∅ (entryName "a") (.file [1, 2] 0) }
      scratch := ExtTreeMap.insert ∅ "temps" ∅ }
    ∃ v, (remote r).copyFrom "k" s "a" true w = .ok (some "k") v ∧
      v.bytesAt? (.object "box" "cas/k") = some [1, 2] ∧
      v.bytesAt? (.object "box" "in/a") = none ∧ (cache.entries v)[entryName "a"]? = none := by
  intro o r cache s w
  have hobject := World.bytesAt?_of_object (w := w) (World.container_setContainer_self {} "box" _)
  have hquiet : w.Quiet := World.quiet_of_container rfl rfl
  have htemp : ∃ files, w.temps? (.scratch "temps") = some files :=
    ⟨∅, ExtTreeMap.getElem?_insert_self⟩
  -- where the two keys lead
  have hsource : s.place "a" = .object "box" "in/a" := congrArg (Place.object "box") (by decide)
  have htarget : (remote r).place "k" = .object "box" "cas/k" :=
    congrArg (Place.object "box") (by decide)
  have hne : (remote r).place "k" ≠ s.place "a" := by
    rw [hsource, htarget]
    exact fun heq => absurd (Place.object.inj heq).2 (by decide)
  have hheld : (PlainStore.remote o).hold? w "a" = some [1, 2] := by
    rw [← PlainStore.bytesAt?_place, show (PlainStore.remote o).place "a" = _ from hsource,
      hobject, if_pos rfl]
  have hfree : w.bytesAt? (.object "box" "cas/k") = none := by
    rw [hobject, if_neg (by decide)]
  have hcache : cache.CoherentAt (.remote o) w "a" :=
    FileCache.coherentAt_of_entry ExtTreeMap.getElem?_insert_self hheld
  have hcoherent : s.CoherentAt w "a" :=
    coherentAt_caching.2 ⟨hcache, fun _ hc => absurd hc List.not_mem_nil⟩
  have hcaches : (remote r).OwnCaches s :=
    ⟨List.nodup_nil, List.nodup_singleton _, .inr (List.disjoint_nil_left _)⟩
  have hsame : ∀ r' o', (remote r).base = .remote r' → s.base = .remote o' →
      o'.location = r'.location → o'.container = r'.container := by
    intro r' o' hr ho _
    obtain rfl := PlainStore.remote.inj hr
    obtain rfl := PlainStore.remote.inj ho
    rfl
  have hkey : Accepted "k" ∧ Fits "k" := ⟨⟨.supplied, by decide⟩, by decide⟩
  have hsourceKey : Accepted "a" ∧ Fits "a" := ⟨⟨.supplied, by decide⟩, by decide⟩
  obtain ⟨v, hrun, hv⟩ := (copyFrom_transfers (.remote r) s hquiet hcaches hsame htemp hkey
    hsourceKey (fun _ hc => absurd hc List.not_mem_nil) hcoherent hne true).2 [1, 2] hheld
  have hfound := hv.target
  have hgone := hv.origin
  rw [htarget, hfree] at hfound
  rw [hsource] at hgone
  exact ⟨v, hrun, hfound, hgone, hv.forgotten rfl cache List.mem_cons_self⟩

end Store

end BlobVault
