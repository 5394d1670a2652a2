import BlobVault.Proofs.Listing

/-!
# Where a pass can be swept

A collector sweeps the passes that have its own id. The id of a remote store is made of the name of
its container and of its root (`RemoteStore.territory`): the account is no part of it, and the two
parts run into each other. So a pass is refused exactly where these texts differ, and a collector
over a store with the same text in another account takes the candidates for keys of its own.

1. `GarbageCollector.sweep_foreign`, `GarbageCollector.reclaimAll_error`: refused passes, and the
   ways in which others can fail.
2. `RemoteStore.territory_eq_iff`: which stores have the same text.
3. `RemoteStore.sweep_refused_iff`: what becomes of a pass of one store in the hands of another.
-/

namespace BlobVault

open Std (ExtTreeMap)

namespace GarbageCollector

variable {σ : Type} (gc : GarbageCollector σ)

/-- A pass with another id is refused, and nothing is touched. -/
theorem sweep_foreign {pass : GcPass} (h : pass.gcId ≠ gc.id) (delete : Bool) (s : σ) :
    gc.sweep pass delete s = .error (.invalid (.foreignPass pass.gcId gc.id)) s := by
  unfold sweep
  rw [if_neg h]
  rfl

/-- Reclaiming fails only where a size cannot be asked for. -/
theorem reclaimAll_error {E : BlobError → Prop}
    (hsize : ∀ key s, Ensures (gc.catalog.size? key) s (fun _ _ => True) fun e _ => E e)
    (delete : Bool) (keys : List String) (status : GcStatus) (s : σ) :
    Ensures (gc.reclaimAll delete keys status) s (fun _ _ => True) fun e _ => E e := by
  induction keys generalizing status s with
  | nil => exact Ensures.pure trivial
  | cons key keys ih =>
    cases hrun : gc.catalog.size? key s with
    | error e t =>
      exact Ensures.of_error (gc.reclaimAll_cons_error hrun) ((hsize key s).error_of_eq hrun)
    | ok size? t =>
      unfold Ensures
      cases size? with
      | none =>
        rw [gc.reclaimAll_cons_none hrun]
        exact ih status t
      | some size =>
        rw [gc.reclaimAll_cons_some hrun]
        exact ih (status.reclaim size) _

end GarbageCollector

namespace GcPass

@[simp] theorem gcId_markEach (pass : GcPass) (marks : List String) :
    (pass.markEach marks).2.gcId = pass.gcId := by
  induction marks generalizing pass with
  | nil => rfl
  | cons mark marks ih => exact ih (pass.mark mark).2

end GcPass

namespace RemoteStore

variable {r s : RemoteStore} {w v : World}

/-- The text by which collectors tell remote stores apart. -/
def territory (r : RemoteStore) : String := r.location.container ++ "/" ++ r.space.root

/-- The size of a blob can fail only with the container. -/
theorem size?_error (r : RemoteStore) (key : String) (w : World) :
    Ensures (r.size? key) w (fun _ _ => True) fun e _ => ∃ cause, e = .backend cause := by
  refine (r.find?_spec (Ensures.any _ _)).mono (fun _ _ _ => trivial) ?_
  rintro e v ⟨d, cause, -, -, -, rfl⟩
  exact ⟨.container cause, rfl⟩

theorem collector_id (r : RemoteStore) (algorithm : DigestAlgorithm) (pageSize : Nat)
    (order : SweepOrder) : (r.collector algorithm pageSize order).id = "azure:" ++ r.territory := by
  show "azure:" ++ r.location.container ++ "/" ++ r.space.root = _
  unfold territory
  rw [String.append_assoc, String.append_assoc, String.append_assoc]

theorem collector_id_eq_iff {a b : DigestAlgorithm} {m n : Nat} {o o' : SweepOrder} :
    (r.collector a m o).id = (s.collector b n o').id ↔ r.territory = s.territory := by
  rw [collector_id, collector_id, String.append_right_inj]

/-- Containers without a delimiter in their names are told apart, and so are roots. -/
theorem territory_eq_iff (hr : pathDelimiter ∉ r.location.container.toList)
    (hs : pathDelimiter ∉ s.location.container.toList) :
    r.territory = s.territory ↔
      r.location.container = s.location.container ∧ r.space.root = s.space.root := by
  have htext : ∀ t : RemoteStore, t.territory.toList =
      t.location.container.toList ++ pathDelimiter :: t.space.root.toList := by
    intro t
    unfold territory
    rw [String.toList_append, String.toList_append, List.append_assoc]
    rfl
  -- the container is what stands in front of the first delimiter
  have hfront : ∀ t : RemoteStore, pathDelimiter ∉ t.location.container.toList →
      t.territory.toList.takeWhile (· != pathDelimiter) = t.location.container.toList := by
    intro t ht
    rw [htext, List.takeWhile_append_of_pos, List.takeWhile_cons_of_neg, List.append_nil]
    · simp
    · intro c hc
      rw [bne_iff_ne]
      rintro rfl
      exact ht hc
  constructor
  · intro h
    have hcontainer : r.location.container = s.location.container := by
      rw [← String.toList_inj, ← hfront r hr, ← hfront s hs, h]
    refine ⟨hcontainer, ?_⟩
    unfold territory at h
    rwa [hcontainer, String.append_right_inj] at h
  · rintro ⟨hcontainer, hroot⟩
    unfold territory
    rw [hcontainer, hroot]

/-- A collector that has the id of a pass, whoever began it, sweeps it: without faults it erases the
objects of its store under the candidates if it deletes, and leaves all others as they are. -/
theorem sweep_of_gcId (s : RemoteStore) (b : DigestAlgorithm) (n : Nat) (o : SweepOrder)
    {pass : GcPass} (hid : pass.gcId = (s.collector b n o).id)
    (hv : (PlainStore.remote s).Quiet v) (delete : Bool) :
    ∃ status u, (s.collector b n o).sweep pass delete v = .ok status u ∧
      ∀ name : String, ((PlainStore.remote s).objects u)[name]? =
        if delete = true ∧ ∃ key ∈ pass.candidates, (PlainStore.remote s).address key = name
        then none else ((PlainStore.remote s).objects v)[name]? := by
  obtain ⟨status, u, hrun, hget⟩ := PlainStore.reclaimAll_erases (p := .remote s)
    (s.collector b n o) rfl hv delete (o.arrange pass.candidates) pass.status
  refine ⟨status, u, (congrFun ((s.collector b n o).sweep_eq pass delete hid) v).trans hrun, ?_⟩
  intro name
  rw [hget]
  refine if_congr (and_congr_right fun _ => exists_congr fun key => ?_) rfl rfl
  rw [(o.perm _).mem_iff]

/-- **Where a pass can be swept.** Take a pass of a collector over one remote store, with any marks,
and a collector over another one, at any time. The second refuses the pass, and touches nothing, if
and only if the two stores differ in the text that is made of container and root. If they do not, it
takes the unmarked candidates for keys of its own: without faults the sweep goes through, and if it
deletes then it erases the objects of the second store under these keys. Where no container has a
delimiter in its name, only the container and the root count, and never the account. -/
theorem sweep_refused_iff (r s : RemoteStore) (a b : DigestAlgorithm) (m n : Nat)
    (o o' : SweepOrder) {w w' : World} {pass : GcPass}
    (hbegin : (r.collector a m o).begin w = .ok pass w') (marks : List String) (delete : Bool)
    (v : World) :
    let swept := (s.collector b n o').sweep (pass.markEach marks).2 delete v
    ((∃ cause, swept = .error (.invalid cause) v) ↔ r.territory ≠ s.territory) ∧
    (r.territory = s.territory → (PlainStore.remote s).Quiet v →
      ∃ status u, swept = .ok status u ∧
        ∀ name : String, ((PlainStore.remote s).objects u)[name]? =
          if delete = true ∧ ∃ key ∈ pass.candidates, key ∉ marks ∧
              (PlainStore.remote s).address key = name then none
          else ((PlainStore.remote s).objects v)[name]?) ∧
    (pathDelimiter ∉ r.location.container.toList → pathDelimiter ∉ s.location.container.toList →
      (r.territory ≠ s.territory ↔
        r.location.container ≠ s.location.container ∨ r.space.root ≠ s.space.root)) := by
  intro swept
  obtain ⟨blobs, hpass⟩ := (r.collector a m o).exists_foldl_of_begin hbegin
  have hnodup : pass.candidates.Nodup := hpass ▸ GcPass.nodup_foldl_add List.nodup_nil
  have hid : (pass.markEach marks).2.gcId = (s.collector b n o').id ↔
      r.territory = s.territory := by
    rw [GcPass.gcId_markEach, hpass, GcPass.gcId_foldl_add]
    exact collector_id_eq_iff (r := r) (a := a) (m := m) (o := o)
  refine ⟨⟨?_, fun hdiffer => ?_⟩, fun hsame hv => ?_, fun hr hs => ?_⟩
  · rintro ⟨cause, hrefused⟩ hsame
    have herror := (s.collector b n o').reclaimAll_error s.size?_error delete
      (o'.arrange (pass.markEach marks).2.candidates) (pass.markEach marks).2.status v
    have hown := congrFun ((s.collector b n o').sweep_eq _ delete (hid.2 hsame)) v
    obtain ⟨backend, hbackend⟩ := herror.error_of_eq (hown.symm.trans hrefused)
    exact absurd hbackend nofun
  · exact ⟨_, (s.collector b n o').sweep_foreign (fun h => hdiffer (hid.1 h)) delete v⟩
  · obtain ⟨status, u, hrun, hget⟩ := s.sweep_of_gcId b n o' (hid.2 hsame) hv delete
    refine ⟨status, u, hrun, fun name => ?_⟩
    rw [hget]
    refine if_congr (and_congr_right fun _ => exists_congr fun key => ?_) rfl rfl
    rw [GcPass.markEach_eq hnodup, List.mem_filter, and_assoc]
    simp
  · rw [Ne, territory_eq_iff hr hs, Classical.not_and_iff_not_or_not]

/-- A pass of the store below one prefix is refused by the collector below another one. -/
theorem sweep_refused_below_other_prefix :
    let r : RemoteStore := {
      name := "vault"
      location := ⟨"account", "box"⟩
      container := "box"
      space := ⟨"a/"⟩
      tempDir := .scratch "temps" }
    let s : RemoteStore := { r with space := ⟨"b/"⟩ }
    let blobs : Blobs := (ExtTreeMap.insert ∅ "a/acbd18db4cc2f85cedef654fccc4a4d8" [1]).insert
      "b/acbd18db4cc2f85cedef654fccc4a4d8" [2]
    let w : World := ({} : World).setContainer "box" { objects := blobs }
    ∃ pass v, (r.collector .md5 10 .listed).begin w = .ok pass v ∧
      pass.isCandidate "acbd18db4cc2f85cedef654fccc4a4d8" = true ∧
      ∃ cause, (s.collector .md5 10 .listed).sweep pass true v = .error (.invalid cause) v := by
  intro r s blobs w
  have hr : r.space.Canonical := by decide
  have hbox : w.container "box" = { objects := blobs } := World.container_setContainer_self _ _ _
  have hw : (PlainStore.remote r).Quiet w := congrArg Container.faults hbox
  obtain ⟨pass, v, hbegin, -, hbegun⟩ := PlainStore.begin_exact (p := .remote r) hr hw
    (r.collector .md5 10 .listed) rfl
  have hname : (PlainStore.remote r).root ++ "acbd18db4cc2f85cedef654fccc4a4d8" =
      "a/acbd18db4cc2f85cedef654fccc4a4d8" := by decide
  refine ⟨pass, v, hbegin, ?_, ?_⟩
  · refine List.contains_iff_mem.2 ((hbegun.mem _).2 ⟨by decide, ?_⟩)
    show _ ∈ (w.container "box").objects
    rw [hbox, hname]
    simp [blobs]
  · exact (sweep_refused_iff r s .md5 .md5 10 10 .listed .listed hbegin [] true v).1.2 (by decide)

/-- Two stores in containers of one name but of different accounts: a pass over the first, swept by
the collector over the second, erases a blob of the second. -/
theorem sweeps_other_account :
    let r : RemoteStore := {
      name := "vault"
      location := ⟨"first", "box"⟩
      container := "box of first"
      tempDir := .scratch "temps" }
    let s : RemoteStore := { r with location := ⟨"second", "box"⟩, container := "box of second" }
    let blobs : Blobs := ExtTreeMap.insert ∅ "acbd18db4cc2f85cedef654fccc4a4d8" [102, 111, 111]
    let w : World := (({} : World).setContainer "box of first" { objects := blobs }).setContainer
      "box of second" { objects := blobs }
    r.location.account ≠ s.location.account ∧
      ∃ pass v, (r.collector .md5 10 .listed).begin w = .ok pass v ∧
        (PlainStore.remote s).hold? v "acbd18db4cc2f85cedef654fccc4a4d8" = some [102, 111, 111] ∧
        ∃ status u, (s.collector .md5 10 .listed).sweep pass true v = .ok status u ∧
          (PlainStore.remote s).hold? u "acbd18db4cc2f85cedef654fccc4a4d8" = none := by
  intro r s blobs w
  have hfirst : w.container "box of first" = { objects := blobs } :=
    (World.container_setContainer_of_ne _ (by decide) _).trans
      (World.container_setContainer_self _ _ _)
  have hsecond : w.container "box of second" = { objects := blobs } :=
    World.container_setContainer_self _ _ _
  have hr : (PlainStore.remote r).Quiet w := congrArg Container.faults hfirst
  have hs : (PlainStore.remote s).Quiet w := congrArg Container.faults hsecond
  have hname : (PlainStore.remote r).root ++ "acbd18db4cc2f85cedef654fccc4a4d8" =
      "acbd18db4cc2f85cedef654fccc4a4d8" := by decide
  have hpath : (PlainStore.remote s).address "acbd18db4cc2f85cedef654fccc4a4d8" =
      "acbd18db4cc2f85cedef654fccc4a4d8" := by decide
  obtain ⟨pass, v, hbegin, hlooks, hbegun⟩ := PlainStore.begin_exact (p := .remote r)
    (show r.space.Canonical by decide) hr (r.collector .md5 10 .listed) rfl
  have hid : (r.collector .md5 10 .listed).id = (s.collector .md5 10 .listed).id :=
    collector_id_eq_iff.2 rfl
  obtain ⟨status, u, hsweep, hget⟩ :=
    s.sweep_of_gcId .md5 10 .listed (hbegun.gcId.trans hid) (hs.of_looks hlooks) true
  refine ⟨by decide, pass, v, hbegin, ?_, status, u, hsweep, ?_⟩
  · rw [PlainStore.hold?_of_looks hlooks]
    show (w.container "box of second").objects[_]? = _
    rw [hpath, hsecond]
    exact ExtTreeMap.getElem?_insert_self
  · refine (hget _).trans (if_pos ⟨rfl, _, (hbegun.mem _).2 ⟨by decide, ?_⟩, rfl⟩)
    show _ ∈ (w.container "box of first").objects
    rw [hfirst, hname]
    exact ExtTreeMap.mem_insert_self

end RemoteStore

end BlobVault
