import BlobVault.Gc.Command
import BlobVault.Proofs.Paging

/-!
# The candidates of a pass

What listing and marking make of a pass, through two views of it: the set of its candidates and its
totals.

1. `begin_ok`, `begin_failure`: a pass starts exactly if the listing has no failure, and then it is
   the fold of `GcPass.add` over the listed blobs.
2. `mem_candidates_foldl_add`, `nodup_foldl_add`, `status_foldl_add`: that fold has each listed
   digest key once, and counts every listed blob with such a key.
3. `markEach_eq`, `getElem?_markEach`: a sequence of marks takes the marked keys off, and a mark
   says yes exactly at the first mark of a candidate.
-/

namespace BlobVault

/-- Whether a listed blob has a key of the collected kind. -/
def DigestAlgorithm.collects (algorithm : DigestAlgorithm) (blob : ListedBlob) : Bool :=
  algorithm.isDigest blob.key

/-- The bytes of some listed blobs. -/
def totalSize (blobs : List ListedBlob) : Nat := (blobs.map ListedBlob.size).sum

@[simp] theorem totalSize_nil : totalSize [] = 0 := rfl

@[simp] theorem totalSize_cons (blob : ListedBlob) (blobs : List ListedBlob) :
    totalSize (blob :: blobs) = blob.size + totalSize blobs := by
  simp [totalSize]

namespace GcPass

variable {algorithm : DigestAlgorithm} {p : GcPass}

theorem add_of_collects {blob : ListedBlob} (h : algorithm.collects blob = true) :
    p.add algorithm blob =
      { p with
        candidates := p.candidates.insert blob.key
        status := p.status.count blob.size } := by
  unfold add
  rw [if_pos (show algorithm.isDigest blob.key = true from h)]

theorem add_of_not_collects {blob : ListedBlob} (h : algorithm.collects blob ≠ true) :
    p.add algorithm blob = p := by
  unfold add
  rw [if_neg (show ¬ algorithm.isDigest blob.key = true from h)]

@[simp] theorem gcId_add (blob : ListedBlob) : (p.add algorithm blob).gcId = p.gcId := by
  unfold add
  split <;> rfl

@[simp] theorem gcId_foldl_add (blobs : List ListedBlob) :
    (blobs.foldl (add algorithm) p).gcId = p.gcId := by
  induction blobs generalizing p with
  | nil => rfl
  | cons blob blobs ih => rw [List.foldl_cons, ih, gcId_add]

theorem mem_candidates_add {blob : ListedBlob} {key : String} :
    key ∈ (p.add algorithm blob).candidates ↔
      key ∈ p.candidates ∨ algorithm.collects blob = true ∧ blob.key = key := by
  by_cases h : algorithm.collects blob = true
  · rw [add_of_collects h, List.mem_insert_iff]
    constructor
    · rintro (rfl | hk)
      · exact .inr ⟨h, rfl⟩
      · exact .inl hk
    · rintro (hk | ⟨-, rfl⟩)
      · exact .inr hk
      · exact .inl rfl
  · rw [add_of_not_collects h]
    simp [h]

/-- The candidates after listing: the digest keys among the listed ones. -/
theorem mem_candidates_foldl_add {blobs : List ListedBlob} {key : String} :
    key ∈ (blobs.foldl (add algorithm) p).candidates ↔
      key ∈ p.candidates ∨ ∃ blob ∈ blobs, algorithm.collects blob = true ∧ blob.key = key := by
  induction blobs generalizing p with
  | nil => simp
  | cons blob blobs ih =>
    rw [List.foldl_cons, ih, mem_candidates_add]
    simp only [List.mem_cons, exists_eq_or_imp, or_assoc]

theorem nodup_add {blob : ListedBlob} (h : p.candidates.Nodup) :
    (p.add algorithm blob).candidates.Nodup := by
  unfold add
  split
  · exact h.insert
  · exact h

theorem nodup_foldl_add {blobs : List ListedBlob} (h : p.candidates.Nodup) :
    (blobs.foldl (add algorithm) p).candidates.Nodup := by
  induction blobs generalizing p with
  | nil => exact h
  | cons blob blobs ih => exact ih (nodup_add h)

theorem length_candidates_foldl_add_le (blobs : List ListedBlob) :
    (blobs.foldl (add algorithm) p).candidates.length ≤
      p.candidates.length + (blobs.filter algorithm.collects).length := by
  induction blobs generalizing p with
  | nil => simp
  | cons blob blobs ih =>
    rw [List.foldl_cons]
    refine Nat.le_trans (ih (p := p.add algorithm blob)) ?_
    by_cases h : algorithm.collects blob = true
    · rw [add_of_collects h, List.filter_cons_of_pos h, List.length_cons]
      have hle : (p.candidates.insert blob.key).length ≤ p.candidates.length + 1 := by
        by_cases hm : blob.key ∈ p.candidates
        · rw [List.length_insert_of_mem hm]
          omega
        · exact Nat.le_of_eq (List.length_insert_of_not_mem hm)
      show (p.candidates.insert blob.key).length + _ ≤ _
      omega
    · refine Nat.le_of_eq ?_
      rw [add_of_not_collects h, List.filter_cons_of_neg h]

/-- The totals after listing: every listed blob with a digest key counts, also a repeated one. -/
theorem status_foldl_add (blobs : List ListedBlob) :
    (blobs.foldl (add algorithm) p).status =
      { p.status with
        numBinaries := p.status.numBinaries + .ofNat (blobs.filter algorithm.collects).length
        sizeBinaries := p.status.sizeBinaries +
          .ofNat (totalSize (blobs.filter algorithm.collects)) } := by
  induction blobs generalizing p with
  | nil => simp
  | cons blob blobs ih =>
    rw [List.foldl_cons, ih]
    by_cases h : algorithm.collects blob = true
    · rw [add_of_collects h, List.filter_cons_of_pos h]
      simp only [GcStatus.count, List.length_cons, totalSize_cons, UInt64.ofNat_add,
        UInt64.ofNat_one, add_assoc, add_comm]
    · rw [add_of_not_collects h, List.filter_cons_of_neg h]

/-! ## Marks -/

/-- The answers to a sequence of marks, and the pass after them. -/
def markEach (p : GcPass) : List String → List Bool × GcPass
  | [] => ([], p)
  | key :: keys =>
    let (was, q) := p.mark key
    let (answers, r) := q.markEach keys
    (was :: answers, r)

theorem nodup_mark (h : p.candidates.Nodup) (key : String) : (p.mark key).2.candidates.Nodup :=
  h.erase key

theorem mem_mark (h : p.candidates.Nodup) {key k : String} :
    k ∈ (p.mark key).2.candidates ↔ k ≠ key ∧ k ∈ p.candidates :=
  h.mem_erase_iff

/-- The pass after some marks has lost the marked keys, and nothing else. -/
theorem markEach_eq (h : p.candidates.Nodup) (keys : List String) :
    (p.markEach keys).2 =
      { p with candidates := p.candidates.filter fun k => !keys.contains k } := by
  induction keys generalizing p with
  | nil =>
    show p = _
    simp only [List.contains_nil, Bool.not_false, List.filter_true]
  | cons key keys ih =>
    show ((p.mark key).2.markEach keys).2 = _
    rw [ih (nodup_mark h key)]
    unfold mark
    simp only [GcPass.mk.injEq, true_and, and_true]
    rw [h.erase_eq_filter, List.filter_filter]
    apply List.filter_congr
    intro k _
    rw [List.contains_cons, Bool.not_or, Bool.and_comm]
    rfl

/-- Marking adds no candidates. -/
theorem mem_of_markEach {pass : GcPass} {marks : List String} {key : String}
    (h : key ∈ (pass.markEach marks).2.candidates) : key ∈ pass.candidates := by
  induction marks generalizing pass with
  | nil => exact h
  | cons mark marks ih => exact List.mem_of_mem_erase (ih h)

@[simp] theorem length_markEach (p : GcPass) (keys : List String) :
    (p.markEach keys).1.length = keys.length := by
  induction keys generalizing p with
  | nil => rfl
  | cons key keys ih => simp [markEach, ih]

/-- A mark says yes exactly if its key is a candidate that no earlier mark has taken off. -/
theorem getElem?_markEach (h : p.candidates.Nodup) (keys : List String) (i : Nat) :
    (p.markEach keys).1[i]? =
      keys[i]?.map fun key => decide (key ∈ p.candidates ∧ key ∉ keys.take i) := by
  induction keys generalizing p i with
  | nil => simp [markEach]
  | cons key keys ih =>
    cases i with
    | zero => simp [markEach, mark, isCandidate]
    | succ i =>
      show ((p.mark key).2.markEach keys).1[i]? = _
      rw [ih (nodup_mark h key), List.getElem?_cons_succ, List.take_succ_cons]
      congr 1
      funext k
      refine decide_eq_decide.2 ?_
      rw [mem_mark h, List.mem_cons, not_or]
      tauto

end GcPass

namespace GarbageCollector

variable {σ : Type} (gc : GarbageCollector σ) {s t : σ}

/-- A listing without failures starts a pass with the listed blobs. -/
theorem begin_ok {blobs : List ListedBlob} (h : gc.catalog.list s = (blobs.map .ok, t)) :
    gc.begin s = .ok (blobs.foldl (GcPass.add gc.algorithm) { gcId := gc.id }) t := by
  obtain ⟨h1, h2⟩ := Pager.readAll_ofListing blobs gc.pageSize
  unfold GarbageCollector.begin
  rw [h]
  dsimp only
  rw [show (Pager.ofListing (blobs.map .ok) gc.pageSize).readAll = (_, none) from Prod.ext rfl h2]
  simp only [h1]

/-- A listing with a failure starts no pass. -/
theorem begin_failure {blobs : List ListedBlob} {e : BlobError} {rest : List ListingItem}
    (h : gc.catalog.list s = (blobs.map .ok ++ .error e :: rest, t)) : gc.begin s = .error e t := by
  have h2 := Pager.readAll_failure (Nat.le_max_right gc.pageSize 1) blobs e rest
  unfold GarbageCollector.begin
  rw [h]
  dsimp only
  rw [show (Pager.ofListing (blobs.map .ok ++ .error e :: rest) gc.pageSize).readAll = (_, some e)
    from Prod.ext rfl h2]

/-- A pass starts with what was listed. -/
theorem exists_foldl_of_begin {pass : GcPass} (h : gc.begin s = .ok pass t) :
    ∃ blobs : List ListedBlob,
      pass = blobs.foldl (GcPass.add gc.algorithm) { gcId := gc.id } := by
  cases hread : (Pager.ofListing (gc.catalog.list s).1 gc.pageSize).readAll with
  | mk pages failure? =>
    unfold GarbageCollector.begin at h
    dsimp only at h
    rw [hread] at h
    cases failure? with
    | some e => exact absurd h nofun
    | none => exact ⟨pages.flatten, (EStateM.Result.ok.inj h).1.symm⟩

/-- The candidates that a collection starts with are digests. -/
theorem isDigest_of_begin {gc : GarbageCollector σ} {s t : σ} {pass : GcPass}
    (h : gc.begin s = .ok pass t) :
    ∀ key ∈ pass.candidates, gc.algorithm.isDigest key = true := by
  obtain ⟨blobs, rfl⟩ := gc.exists_foldl_of_begin h
  intro key hkey
  rcases GcPass.mem_candidates_foldl_add.1 hkey with hnil | ⟨blob, -, hcollects, rfl⟩
  · exact absurd hnil List.not_mem_nil
  · exact hcollects

end GarbageCollector

end BlobVault
