import BlobVault.Proofs.Gc.Sweep

/-!
# What a command removes

A command lists, marks every live reference and sweeps. Whatever its catalog and its live references
do, and at whatever point they fail, it removes only listed digest keys that no live reference
named, each at most once, and nothing at all unless all of the listing and all of the references
came through (`removals_of_command`). Its totals account for every listed digest key.
-/

namespace BlobVault

open CatalogEvent

/-- The keys that the live references name. -/
def LiveKeys.named (live : LiveKeys) : List String := live.filterMap Except.toOption

theorem LiveKeys.mem_named {live : LiveKeys} {key : String} :
    key ∈ live.named ↔ .ok key ∈ live := by
  unfold LiveKeys.named
  rw [List.mem_filterMap]
  constructor
  · rintro ⟨item, hitem, h⟩
    cases item with
    | error e => simp [Except.toOption] at h
    | ok k =>
      obtain rfl : k = key := by simpa [Except.toOption] using h
      exact hitem
  · intro h
    exact ⟨.ok key, h, rfl⟩

/-- The listed items whose key is a digest. -/
def DigestAlgorithm.digestItems (algorithm : DigestAlgorithm) (items : List ListingItem) :
    List ListingItem :=
  items.filter fun item => item.toOption.any algorithm.collects

theorem DigestAlgorithm.length_digestItems (algorithm : DigestAlgorithm)
    (blobs : List ListedBlob) :
    (algorithm.digestItems (blobs.map .ok)).length = (blobs.filter algorithm.collects).length := by
  unfold DigestAlgorithm.digestItems
  rw [List.filter_map, List.length_map]
  rfl

namespace Marking

theorem pass_mark (m : Marking) (key : String) : (m.mark key).pass = (m.pass.mark key).2 := by
  unfold mark
  dsimp only
  split <;> rfl

/-- Marking fails exactly if a reference fails. -/
theorem isSome_markAll_iff (m : Marking) (live : LiveKeys) :
    (m.markAll live).2.isSome ↔ ∃ e, .error e ∈ live := by
  induction live generalizing m with
  | nil => simp [markAll]
  | cons item live ih =>
    cases item with
    | error e => exact ⟨fun _ => ⟨e, List.mem_cons_self⟩, fun _ => rfl⟩
    | ok key =>
      show ((m.mark key).markAll live).2.isSome ↔ _
      rw [ih]
      simp

/-- Marking that goes through has marked every named key. -/
theorem pass_markAll {m : Marking} {live : LiveKeys} (h : (m.markAll live).2 = none) :
    (m.markAll live).1.pass = (m.pass.markEach live.named).2 := by
  induction live generalizing m with
  | nil => rfl
  | cons item live ih =>
    cases item with
    | error e => simp [markAll] at h
    | ok key =>
      show ((m.mark key).markAll live).1.pass = _
      rw [ih h, pass_mark]
      rfl

end Marking

/-- The end of a command whose sweep has ended. -/
def GcReport.concluded {σ : Type} (r : GcReport) (now : Timestamp) :
    EStateM.Result BlobError σ GcStatus → GcReport × σ
  | .ok result u => (r.complete result now, u)
  | .error e u => (r.abort e now, u)

namespace GarbageCollector

variable {σ : Type} (gc : GarbageCollector σ)

theorem list_watched {s t : σ} {items : List ListingItem} (h : gc.catalog.list s = (items, t))
    (log : List CatalogEvent) : gc.watched.catalog.list (s, log) = (items, (t, log)) := by
  show ((gc.catalog.list s).1, ((gc.catalog.list s).2, log)) = _
  rw [h]

theorem sweep_eq (pass : GcPass) (delete : Bool) (h : pass.gcId = gc.id) :
    gc.sweep pass delete =
      gc.reclaimAll delete (gc.order.arrange pass.candidates) pass.status := by
  unfold sweep
  rw [if_pos h]

/-- The pass of a listing without failures. -/
def passOf (blobs : List ListedBlob) : GcPass :=
  blobs.foldl (GcPass.add gc.algorithm) { gcId := gc.id }

@[simp] theorem passOf_watched (blobs : List ListedBlob) :
    gc.watched.passOf blobs = gc.passOf blobs := rfl

theorem nodup_passOf (blobs : List ListedBlob) : (gc.passOf blobs).candidates.Nodup :=
  GcPass.nodup_foldl_add List.nodup_nil

theorem mem_passOf {blobs : List ListedBlob} {key : String} :
    key ∈ (gc.passOf blobs).candidates ↔
      ∃ blob ∈ blobs, gc.algorithm.collects blob = true ∧ blob.key = key := by
  unfold passOf
  rw [GcPass.mem_candidates_foldl_add]
  simp

theorem status_passOf (blobs : List ListedBlob) :
    (gc.passOf blobs).status =
      { numBinaries := .ofNat (blobs.filter gc.algorithm.collects).length
        sizeBinaries := .ofNat (totalSize (blobs.filter gc.algorithm.collects)) } := by
  unfold passOf
  rw [GcPass.status_foldl_add]
  simp

/-- The candidates that no live reference names, in the order of the sweep. -/
def unnamed (blobs : List ListedBlob) (live : LiveKeys) : List String :=
  gc.order.arrange ((gc.passOf blobs).candidates.filter fun k => !live.named.contains k)

@[simp] theorem unnamed_watched (blobs : List ListedBlob) (live : LiveKeys) :
    gc.watched.unnamed blobs live = gc.unnamed blobs live := rfl

theorem nodup_unnamed (blobs : List ListedBlob) (live : LiveKeys) :
    (gc.unnamed blobs live).Nodup :=
  (gc.order.perm _).nodup_iff.2 ((gc.nodup_passOf blobs).filter _)

theorem length_unnamed_le (blobs : List ListedBlob) (live : LiveKeys) :
    (gc.unnamed blobs live).length ≤ (blobs.filter gc.algorithm.collects).length := by
  unfold unnamed
  rw [(gc.order.perm _).length_eq]
  have hfilter := List.length_filter_le (fun k => !live.named.contains k)
    (gc.passOf blobs).candidates
  have hcand : (gc.passOf blobs).candidates.length ≤ 0 + _ :=
    GcPass.length_candidates_foldl_add_le blobs
  omega

theorem mem_unnamed {blobs : List ListedBlob} {live : LiveKeys} {key : String} :
    key ∈ gc.unnamed blobs live ↔ key ∈ (gc.passOf blobs).candidates ∧ .ok key ∉ live := by
  unfold unnamed
  rw [(gc.order.perm _).mem_iff, List.mem_filter, ← LiveKeys.mem_named]
  simp

/-- What a sweep takes was listed, is a digest, and was not named. -/
theorem listed_of_mem_unnamed {blobs : List ListedBlob} {live : LiveKeys} {key : String}
    (h : key ∈ gc.unnamed blobs live) :
    (∃ size, .ok ⟨key, size⟩ ∈ (blobs.map .ok : List (Except BlobError ListedBlob))) ∧
      gc.algorithm.isDigest key = true ∧ .ok key ∉ live := by
  obtain ⟨hcand, hnamed⟩ := gc.mem_unnamed.1 h
  obtain ⟨blob, hblob, hdigest, rfl⟩ := gc.mem_passOf.1 hcand
  exact ⟨⟨blob.size, List.mem_map_of_mem hblob⟩, hdigest, hnamed⟩

/-- A sweep that reclaims keys that no live reference names counts them and their bytes, and what it
keeps is the rest of the listed digest keys, as far as words can count. -/
theorem counts_of_swept {blobs : List ListedBlob} {live : LiveKeys} {swept : List (String × Nat)}
    (hsub : (swept.map Prod.fst).Sublist (gc.unnamed blobs live)) :
    let totals := ((gc.passOf blobs).status.reclaimEach swept).totals
    let listed := gc.algorithm.digestItems (blobs.map .ok)
    (listed.length < 2 ^ 64 → totals.numBinariesGc = swept.length ∧
      totals.numBinaries + totals.numBinariesGc = listed.length) ∧
    ((swept.map Prod.snd).sum < 2 ^ 64 → totals.sizeBinariesGc = (swept.map Prod.snd).sum) := by
  intro totals listed
  have hkept : swept.length ≤ (blobs.filter gc.algorithm.collects).length := by
    have hlen := hsub.length_le
    rw [List.length_map] at hlen
    exact Nat.le_trans hlen (gc.length_unnamed_le blobs live)
  have hlisted : listed.length = (blobs.filter gc.algorithm.collects).length :=
    DigestAlgorithm.length_digestItems ..
  dsimp only [totals, GcStatus.totals]
  rw [GcStatus.reclaimEach_eq, status_passOf, hlisted]
  simp only [GcStatus.toNat_lower, UInt64.zero_add]
  refine ⟨fun hnum => ?_, UInt64.toNat_ofNat_of_lt'⟩
  rw [UInt64.toNat_ofNat_of_lt' hnum, UInt64.toNat_ofNat_of_lt' (hkept.trans_lt hnum)]
  exact ⟨rfl, Nat.sub_add_cancel hkept⟩

/-! ## The ends of a command -/

variable {live : LiveKeys} (report : GcReport) (now : Timestamp) {s t : σ}

theorem execute_begin_error {e : BlobError} (h : gc.begin s = .error e t) :
    gc.execute live report now s = (({ report with state := .running }).abort e now, t) := by
  unfold execute
  simp only [h]

theorem execute_mark_error {pass : GcPass} {e : BlobError} (h : gc.begin s = .ok pass t)
    (hm : (({ pass : Marking }).markAll live).2 = some e) :
    gc.execute live report now s =
      (((({ report with state := .running }).progress
        (({ pass : Marking }).markAll live).1.reported)).abort e now, t) := by
  unfold execute
  simp only [h, hm]

/-- A command whose listing and references come through ends as its sweep does. -/
theorem execute_sweep {blobs : List ListedBlob} (hlist : gc.catalog.list s = (blobs.map .ok, t))
    (hlive : ∀ e, .error e ∉ live) :
    gc.execute live report now s =
      (({ report with state := .running }).progress
        (({ pass := gc.passOf blobs : Marking }).markAll live).1.reported).concluded now
        (gc.reclaimAll report.delete (gc.unnamed blobs live) (gc.passOf blobs).status t) := by
  have hm : (({ pass := gc.passOf blobs } : Marking).markAll live).2 = none := by
    rw [← Option.not_isSome_iff_eq_none, Marking.isSome_markAll_iff]
    rintro ⟨e, he⟩
    exact hlive e he
  have hpass := Marking.pass_markAll hm
  rw [GcPass.markEach_eq (gc.nodup_passOf blobs)] at hpass
  have hid : (gc.passOf blobs).gcId = gc.id := GcPass.gcId_foldl_add blobs
  have hsweep : gc.sweep (({ pass := gc.passOf blobs } : Marking).markAll live).1.pass
      report.delete = gc.reclaimAll report.delete (gc.unnamed blobs live)
        (gc.passOf blobs).status := by
    rw [hpass]
    exact gc.sweep_eq { gc.passOf blobs with candidates := _ } report.delete hid
  have hbegin : gc.begin s = .ok (gc.passOf blobs) t := gc.begin_ok hlist
  unfold execute
  simp only [hbegin, hm]
  rw [← hsweep]
  rfl

/-- A command that does not get to its sweep removes nothing. -/
theorem execute_unswept (h : (∃ e, .error e ∈ (gc.catalog.list s).1) ∨ ∃ e, .error e ∈ live) :
    ∃ final t, final.state ≠ .completed ∧ gc.execute live report now s = (final, t) ∧
      ∀ log, gc.watched.execute live report now (s, log) = (final, (t, log)) := by
  rcases Pager.items_eq_or (gc.catalog.list s).1 with ⟨blobs, hitems⟩ | ⟨blobs, e, rest, hitems⟩
  · have hlist : gc.catalog.list s = (blobs.map .ok, (gc.catalog.list s).2) := Prod.ext hitems rfl
    have hlive : ∃ e, .error e ∈ live := by
      rcases h with ⟨e, he⟩ | h
      · rw [hitems] at he
        simp at he
      · exact h
    obtain ⟨e, hm⟩ := Option.isSome_iff_exists.1
      ((Marking.isSome_markAll_iff { pass := gc.passOf blobs } live).2 hlive)
    refine ⟨_, _, ?_, gc.execute_mark_error report now (gc.begin_ok hlist) hm, fun log =>
      gc.watched.execute_mark_error report now (gc.watched.begin_ok (gc.list_watched hlist log)) hm⟩
    exact GcCommandState.noConfusion
  · have hlist : gc.catalog.list s =
        (blobs.map .ok ++ .error e :: rest, (gc.catalog.list s).2) := Prod.ext hitems rfl
    refine ⟨_, _, ?_, gc.execute_begin_error report now (gc.begin_failure hlist), fun log =>
      gc.watched.execute_begin_error report now
        (gc.watched.begin_failure (gc.list_watched hlist log))⟩
    exact GcCommandState.noConfusion

/-- A command that gets to its sweep reclaims some of the listed digest keys that no live reference
names, each once. -/
theorem execute_swept {blobs : List ListedBlob} (hlist : gc.catalog.list s = (blobs.map .ok, t))
    (hlive : ∀ e, .error e ∉ live) :
    ∃ final u more, gc.execute live report now s = (final, u) ∧
      gc.watched.execute live report now (s, []) = (final, (u, more)) ∧
      ((sizes more).map Prod.fst).Sublist (gc.unnamed blobs live) ∧
      removals more = (if report.delete then (sizes more).map Prod.fst else []) ∧
      (final.state = .completed →
        final.result? = some ((gc.passOf blobs).status.reclaimEach (sizes more))) := by
  have hexec := gc.execute_sweep report now hlist hlive
  have hwexec := gc.watched.execute_sweep report now
    (gc.list_watched hlist []) hlive
  rw [passOf_watched, unnamed_watched] at hwexec
  obtain ⟨u, more, hsub, hrem, hrun⟩ := gc.reclaimAll_watched report.delete
    (gc.unnamed blobs live) (gc.passOf blobs).status t []
  rcases hrun with ⟨e, hrun, hwrun⟩ | ⟨hrun, hwrun⟩
  · rw [hrun] at hexec
    rw [hwrun] at hwexec
    exact ⟨_, u, more, hexec, hwexec, hsub, hrem, GcCommandState.noConfusion⟩
  · rw [hrun] at hexec
    rw [hwrun] at hwexec
    exact ⟨_, u, more, hexec, hwexec, hsub, hrem, fun _ => rfl⟩

/-- **Safety of collection.** A command watched on any catalog, in any state, with any live
references reports what the unwatched one reports. It removes only keys that were listed, are
digests, and were not named, none twice; and none at all if it does not delete, or if the listing or
the references failed anywhere. If it goes through and deletes, then the keys that it removed are
those whose size was reported to the sweep, the reclaimed totals are their number and the sum of
these sizes, and the kept and the reclaimed blobs together are the listed digest keys, repeated ones
included, as far as words can count these. -/
theorem removals_of_command (live : LiveKeys) (id : CommandId) (command : GcCommand)
    (submitted now : Timestamp) (s : σ) :
    let items := (gc.catalog.list s).1
    let start := GcReport.scheduled id gc.id command submitted
    let report := (gc.execute live start now s).1
    let log := (gc.watched.execute live start now (s, [])).2.2
    gc.watched.execute live start now (s, []) = (report, (gc.execute live start now s).2, log) ∧
    (∀ key ∈ removals log, (∃ size, .ok ⟨key, size⟩ ∈ items) ∧
      gc.algorithm.isDigest key = true ∧ .ok key ∉ live) ∧
    (removals log).Nodup ∧
    (command.delete = false ∨ (∃ e, .error e ∈ items) ∨ (∃ e, .error e ∈ live) →
      removals log = []) ∧
    (report.state = .completed → command.delete = true →
      ∃ status, report.result? = some status ∧
        removals log = (sizes log).map Prod.fst ∧
        ((gc.algorithm.digestItems items).length < 2 ^ 64 →
          status.totals.numBinariesGc = (removals log).length ∧
          status.totals.numBinaries + status.totals.numBinariesGc =
            (gc.algorithm.digestItems items).length) ∧
        (((sizes log).map Prod.snd).sum < 2 ^ 64 →
          status.totals.sizeBinariesGc = ((sizes log).map Prod.snd).sum)) := by
  intro items start report log
  by_cases hfail : (∃ e, .error e ∈ items) ∨ ∃ e, .error e ∈ live
  · obtain ⟨final, t, hstate, hexec, hwexec⟩ :=
      gc.execute_unswept start now hfail
    have hreport : report = final := congrArg Prod.fst hexec
    have hlog : log = [] := congrArg (fun out => out.2.2) (hwexec [])
    rw [hlog, hwexec, hexec, hreport]
    refine ⟨rfl, ?_, List.nodup_nil, fun _ => rfl, fun h => absurd h hstate⟩
    intro key hkey
    exact absurd hkey List.not_mem_nil
  · rw [not_or, not_exists, not_exists] at hfail
    obtain ⟨hitems, hlive⟩ := hfail
    obtain ⟨blobs, hblobs⟩ : ∃ blobs : List ListedBlob, items = blobs.map .ok := by
      rcases Pager.items_eq_or items with h | ⟨blobs, e, rest, h⟩
      · exact h
      · exact absurd (by simp [h]) (hitems e)
    have hlist : gc.catalog.list s = (blobs.map .ok, (gc.catalog.list s).2) := Prod.ext hblobs rfl
    obtain ⟨final, u, more, hexec, hwexec, hsub, hrem, hresult⟩ :=
      gc.execute_swept start now hlist hlive
    have hreport : report = final := congrArg Prod.fst hexec
    have hlog : log = more := congrArg (fun out => out.2.2) hwexec
    rw [hlog, hwexec, hexec, hreport]
    have hsubset : ∀ key ∈ removals more, key ∈ gc.unnamed blobs live := by
      intro key hkey
      rw [hrem] at hkey
      split at hkey
      · exact hsub.subset hkey
      · exact absurd hkey List.not_mem_nil
    refine ⟨rfl, ?_, ?_, ?_, ?_⟩
    · intro key hkey
      rw [hblobs]
      exact gc.listed_of_mem_unnamed (hsubset key hkey)
    · rw [hrem]
      split
      · exact hsub.nodup (gc.nodup_unnamed blobs live)
      · exact List.nodup_nil
    · rintro (hdelete | ⟨e, he⟩ | ⟨e, he⟩)
      · rw [hrem, if_neg (by rw [show start.delete = false from hdelete]; decide)]
      · exact absurd he (hitems e)
      · exact absurd he (hlive e)
    · intro hstate hdelete
      have hall : removals more = (sizes more).map Prod.fst := by
        rw [hrem, if_pos (show start.delete = true from hdelete)]
      obtain ⟨hnum, hsize⟩ := gc.counts_of_swept hsub
      rw [hall, List.length_map, hblobs]
      exact ⟨_, hresult hstate, rfl, hnum, hsize⟩

end GarbageCollector

end BlobVault
