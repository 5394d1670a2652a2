import BlobVault.Proofs.Copying.Pairs

/-!
# The two ways of a copy from one remote store to another

Inside their container the object of the source key is copied, as the key is written. Through a
local file goes what a read of the key gets, and that may be the range that the key carries. The two
ways agree just where this makes no difference.

1. `RemoteStore.Copied`: what a copy leaves that takes some content from the source, or finds none.
2. `RemoteStore.copyInside_copied`, `RemoteStore.copyThrough_copied`: what each way takes.
3. `RemoteStore.ways_agree_iff`: when the two ways agree.
-/

namespace BlobVault

open Std (ExtTreeMap)

namespace RemoteStore

variable {r o : RemoteStore} {w v v' : World} {key sourceKey : String} {move : Bool}

/-! ## What a copy takes -/

/-- A copy took some content from the source, which the target has accepted, and a move has then
deleted the source; or it found nothing. -/
def Copied (r : RemoteStore) (key : String) (o : RemoteStore) (sourceKey : String) (move : Bool)
    (content? : Option Bytes) (w : World) (k? : Option String) (v : World) : Prop :=
  match content? with
  | none => k? = none ∧ w.Looks v
  | some content => k? = some key ∧ ∃ x, (Store.remote o).Stored (.remote r) key content w x ∧
      (Store.remote o).Finished sourceKey move x v

theorem delete_copied (hquiet : w.Quiet) {x : World} {content : Bytes}
    (hx : (Store.remote o).Stored (.remote r) key content w x) :
    Ensures ((Store.remote o).delete sourceKey) x
      (fun _ v => (Store.remote o).Deleted sourceKey x v) NoError :=
  hx.delete_spec hquiet List.nodup_nil fun _ hc => absurd hc List.not_mem_nil

/-- Inside the container, a copy takes what is held under the source key. -/
theorem copyInside_copied (hsame : o.container = r.container) (hquiet : w.Quiet)
    (hne : o.pathFor sourceKey ≠ r.pathFor key) :
    Ensures (r.copyInside key (.remote o) o sourceKey move) w
      (fun k? v => r.Copied key o sourceKey move ((PlainStore.remote o).hold? w sourceKey) w k? v)
      NoError := by
  have hstored : ∀ {x content}, ((PlainStore.remote r).accept w key content).Looks x →
      (Store.remote o).Stored (.remote r) key content w x := fun hx => ⟨w, .of_looks (.refl w), hx⟩
  refine (r.copyInside_spec hsame (hquiet r.container).honest fun x content _ hx =>
    delete_copied hquiet (hstored hx)).mono ?_ fun _ _ h => h.2 (hquiet r.container)
  rintro k? v (⟨rfl, hnone, hv⟩ | ⟨rfl, content, x, hheld, hx, hv⟩)
  · rw [hnone]
    exact ⟨rfl, hv⟩
  · rw [hheld]
    refine ⟨rfl, x, hstored hx, ?_⟩
    unfold Store.Finished
    simpa only [and_iff_left hne] using hv

/-- Through a local file, a copy takes what a read of the source key gets. -/
theorem copyThrough_copied (hquiet : w.Quiet) (htemp : ∃ files, w.temps? r.tempDir = some files) :
    Ensures (r.copyThrough key (.remote o) sourceKey move) w
      (fun k? v => r.Copied key o sourceKey move ((PlainStore.remote o).asked? w sourceKey) w k? v)
      NoError := by
  have hfile := PlainStore.withFile_spec (p := .remote o) (q := .remote r) (hquiet o.container)
    (hquiet r.container) htemp sourceKey key
  have hstored : ∀ {x content}, ((PlainStore.remote r).accept w key content).Looks x →
      (Store.remote o).Stored (.remote r) key content w x := fun hx => ⟨w, .of_looks (.refl w), hx⟩
  refine (PlainStore.copyThrough_spec (p := .remote r) hfile fun x ⟨content, _, hx⟩ =>
    delete_copied hquiet (hstored hx)).mono ?_ fun _ _ h => h
  rintro k? v (⟨rfl, hnone, hv⟩ | ⟨rfl, x, ⟨content, hasked, hx⟩, hv⟩)
  · rw [hnone]
    exact ⟨rfl, hv⟩
  · rw [hasked]
    exact ⟨rfl, x, hstored hx, hv⟩

/-! ## When two copies agree -/

variable {content content' : Bytes} {k? k'? : Option String}

/-- The target has what was taken, unless it had something before. -/
theorem Copied.target (h : r.Copied key o sourceKey move (some content) w k? v)
    (hne : (PlainStore.remote r).place key ≠ (PlainStore.remote o).place sourceKey) :
    (PlainStore.remote r).hold? v key =
      some (((PlainStore.remote r).hold? w key).getD content) := by
  obtain ⟨-, x, hx, hv⟩ := h
  rw [← PlainStore.bytesAt?_place, ← PlainStore.bytesAt?_place, hv.bytesAt?_of_ne hne,
    hx.bytesAt?_self]

/-- Two copies that took something leave the same everywhere but at the target. -/
theorem Copied.keeps (h : r.Copied key o sourceKey move (some content) w k? v)
    (h' : r.Copied key o sourceKey move (some content') w k'? v')
    (htarget : (PlainStore.remote r).hold? v' key = (PlainStore.remote r).hold? v key) :
    v.Keeps v' := by
  obtain ⟨-, x, hx, hv⟩ := h
  obtain ⟨-, x', hx', hv'⟩ := h'
  have hstored : ∀ place, place ≠ (PlainStore.remote r).place key →
      x'.bytesAt? place = x.bytesAt? place := fun place hplace =>
    (hx'.bytesAt?_of_ne hplace).trans (hx.bytesAt?_of_ne hplace).symm
  intro place
  by_cases hplace : place = (PlainStore.remote r).place key
  · rw [hplace, PlainStore.bytesAt?_place, PlainStore.bytesAt?_place, htarget]
  by_cases hsource : place = (Store.remote o).place sourceKey
  · subst hsource
    rw [hv.bytesAt?_self, hv'.bytesAt?_self, hstored _ hplace]
  · rw [hv.bytesAt?_of_ne hsource, hv'.bytesAt?_of_ne hsource, hstored place hplace]

/-- Two copies have one result and leave the same objects just if both find nothing, or both take
something and, unless the target has something already, the same. -/
theorem Copied.agree_iff {content? content'? : Option Bytes}
    (h : r.Copied key o sourceKey move content? w k? v)
    (h' : r.Copied key o sourceKey move content'? w k'? v')
    (hne : (PlainStore.remote r).place key ≠ (PlainStore.remote o).place sourceKey) :
    (k'? = k? ∧ v.Keeps v') ↔ content?.isSome = content'?.isSome ∧
      ((PlainStore.remote r).hold? w key = none → content? = content'?) := by
  cases content? with
  | none =>
    cases content'? with
    | none => exact iff_of_true ⟨h'.1.trans h.1.symm, fun place =>
        (h'.2.keeps place).trans (h.2.keeps place).symm⟩ ⟨rfl, fun _ => rfl⟩
    | some content' =>
      refine iff_of_false (fun hsame => ?_) fun hsame => absurd hsame.1 nofun
      rw [h.1, h'.1] at hsame
      exact absurd hsame.1 nofun
  | some content =>
    cases content'? with
    | none =>
      refine iff_of_false (fun hsame => ?_) fun hsame => absurd hsame.1 nofun
      rw [h.1, h'.1] at hsame
      exact absurd hsame.1 nofun
    | some content' =>
      have htarget := h.target hne
      have htarget' := h'.target hne
      constructor
      · rintro ⟨-, hkeeps⟩
        refine ⟨rfl, fun hfree => ?_⟩
        rw [PlainStore.hold?_of_keeps hkeeps, htarget, hfree] at htarget'
        exact htarget'
      · rintro ⟨-, hsame⟩
        refine ⟨h'.1.trans h.1.symm, h.keeps h' ?_⟩
        rw [htarget, htarget']
        cases hfree : (PlainStore.remote r).hold? w key with
        | none => exact (hsame hfree).symm
        | some held => rfl

/-- **The two ways of a copy.** Without faults, both ways from one remote store to another in the
same container go through, for all keys that lead to different objects. They have the same result
and leave the same objects if the source takes no ranges in keys or its key carries none. In general
they do so just if an object under the source key, as it is written, is there whenever a read of the
key gets something, and the other way round, and is what that gets unless the target has something
already. -/
theorem ways_agree_iff (r o : RemoteStore) (hsame : o.container = r.container) {w : World}
    (hquiet : w.Quiet) (htemp : ∃ files, w.temps? r.tempDir = some files) {key sourceKey : String}
    (hne : o.pathFor sourceKey ≠ r.pathFor key) (move : Bool) :
    ∃ k? v k'? v', r.copyInside key (.remote o) o sourceKey move w = .ok k? v ∧
      r.copyThrough key (.remote o) sourceKey move w = .ok k'? v' ∧
      ((o.allowsRange = true → ¬ ByteRange.isAnnotated sourceKey = true) →
        k'? = k? ∧ v.Keeps v') ∧
      ((k'? = k? ∧ v.Keeps v') ↔
        ((PlainStore.remote o).hold? w sourceKey).isSome =
            ((PlainStore.remote o).asked? w sourceKey).isSome ∧
          ((PlainStore.remote r).hold? w key = none →
            (PlainStore.remote o).hold? w sourceKey =
              (PlainStore.remote o).asked? w sourceKey)) := by
  have hplace : (PlainStore.remote r).place key ≠ (PlainStore.remote o).place sourceKey := by
    rw [Ne, PlainStore.place_remote_eq_iff]
    exact fun h => hne h.2.symm
  have hinside : Ensures (r.copyInside key (.remote o) o sourceKey move) w _ NoError :=
    copyInside_copied hsame hquiet hne
  have hthrough : Ensures (r.copyThrough key (.remote o) sourceKey move) w _ NoError :=
    copyThrough_copied hquiet htemp
  obtain ⟨k?, v, hrun, hcopied⟩ := hinside.exists_ok
  obtain ⟨k'?, v', hrun', hcopied'⟩ := hthrough.exists_ok
  have hiff := hcopied.agree_iff hcopied' hplace
  refine ⟨k?, v, k'?, v', hrun, hrun', fun hplain => hiff.2 ?_, hiff⟩
  rw [PlainStore.asked?_of_target (PlainStore.target_of_not_isAnnotated (p := .remote o) hplain)]
  exact ⟨rfl, fun _ => rfl⟩

/-- A blob that is moved from one namespace to another in one container, out of a store that takes
ranges. -/
theorem ways_agree_below_prefixes :
    let o : RemoteStore := {
      name := "inbox"
      location := ⟨"account", "box"⟩
      container := "box"
      space := .ofText "in"
      allowsRange := true
      tempDir := .scratch "temps" }
    let r : RemoteStore := { o with name := "vault", space := .ofText "cas" }
    let w : World := {
      containers := ExtTreeMap.insert ∅ "box" { objects := ExtTreeMap.insert ∅ "in/a" [1, 2] }
      scratch := ExtTreeMap.insert ∅ "temps" ∅ }
    ∃ k? v v', r.copyInside "k" (.remote o) o "a" true w = .ok k? v ∧
      r.copyThrough "k" (.remote o) "a" true w = .ok k? v' ∧ v.Keeps v' := by
  intro o r w
  have htemp : ∃ files, w.temps? (.scratch "temps") = some files :=
    ⟨∅, ExtTreeMap.getElem?_insert_self⟩
  have hquiet : w.Quiet := World.quiet_of_container rfl rfl
  obtain ⟨k?, v, k'?, v', hrun, hrun', hplain, -⟩ :=
    ways_agree_iff r o rfl hquiet htemp (show o.pathFor "a" ≠ r.pathFor "k" by decide) true
  obtain ⟨rfl, hkeeps⟩ := hplain fun _ => by decide
  exact ⟨k'?, v, v', hrun, hrun', hkeeps⟩

/-- The first byte of a blob, asked for by a key with a range: inside the container there is no such
blob, but through a local file it is copied. -/
theorem range_found_only_through :
    let o : RemoteStore := {
      name := "inbox"
      location := ⟨"account", "box"⟩
      container := "box"
      space := .ofText "in"
      allowsRange := true
      tempDir := .scratch "temps" }
    let r : RemoteStore := { o with name := "vault", space := .ofText "cas" }
    let w : World := {
      containers := ExtTreeMap.insert ∅ "box" { objects := ExtTreeMap.insert ∅ "in/a" [1, 2] }
      scratch := ExtTreeMap.insert ∅ "temps" ∅ }
    (∃ v, r.copyInside "k" (.remote o) o "a;0;0" false w = .ok none v ∧
      v.bytesAt? (.object "box" "cas/k") = none) ∧
    ∃ v, r.copyThrough "k" (.remote o) "a;0;0" false w = .ok (some "k") v ∧
      v.bytesAt? (.object "box" "cas/k") = some [1] := by
  intro o r w
  have hbox : w.container "box" = { objects := ExtTreeMap.insert ∅ "in/a" [1, 2] } :=
    World.container_setContainer_self {} "box" _
  have htemp : ∃ files, w.temps? (.scratch "temps") = some files :=
    ⟨∅, ExtTreeMap.getElem?_insert_self⟩
  have hquiet : w.Quiet := World.quiet_of_container rfl rfl
  -- what the container has under the paths of the three keys
  have hobject : ∀ (p : RemoteStore) (key path : String), p.container = "box" →
      (p.pathFor key).text = path → (PlainStore.remote p).hold? w key =
        if compare "in/a" path = .eq then some [1, 2] else none := by
    rintro p key path hp rfl
    show (w.container p.container).objects[(p.pathFor key).text]? = _
    rw [hp, hbox, ExtTreeMap.getElem?_insert, ExtTreeMap.getElem?_empty]
  have hheld := hobject o "a" "in/a" rfl (by decide)
  have hannotated := hobject o "a;0;0" "in/a;0;0" rfl (by decide)
  have hfree := hobject r "k" "cas/k" rfl (by decide)
  rw [if_pos (by decide)] at hheld
  rw [if_neg (by decide)] at hannotated hfree
  have hasked : (PlainStore.remote o).asked? w "a;0;0" = some [1] := by
    unfold PlainStore.asked?
    rw [show (PlainStore.remote o).target "a;0;0" = ("a", some ⟨0, 1⟩) by decide, hheld]
    decide
  have htarget : (PlainStore.remote r).place "k" = .object "box" "cas/k" :=
    congrArg (Place.object "box") (by decide)
  have hinside : Ensures (r.copyInside "k" (.remote o) o "a;0;0" false) w _ NoError :=
    copyInside_copied rfl hquiet (by decide)
  have hthrough : Ensures (r.copyThrough "k" (.remote o) "a;0;0" false) w _ NoError :=
    copyThrough_copied hquiet htemp
  rw [hannotated] at hinside
  rw [hasked] at hthrough
  obtain ⟨k?, v, hrun, rfl, hv⟩ := hinside.exists_ok
  obtain ⟨k'?, v', hrun', hcopied⟩ := hthrough.exists_ok
  have htaken := hcopied.target (by
    rw [htarget]
    exact fun h => absurd (Place.object.inj h).2 (by decide))
  obtain ⟨rfl, -⟩ := hcopied
  refine ⟨⟨v, hrun, ?_⟩, v', hrun', ?_⟩
  · rw [← htarget, PlainStore.bytesAt?_place, PlainStore.hold?_of_looks hv, hfree]
  · rw [← htarget, PlainStore.bytesAt?_place, htaken, hfree]
    rfl

end RemoteStore

end BlobVault
