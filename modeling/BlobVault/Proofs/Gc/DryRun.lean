import BlobVault.Proofs.Gc.Exact
import BlobVault.Proofs.Gc.Tally

/-!
# Dry runs, and the order of a sweep

A catalog is settled (`Catalog.Settled`) if its sizes are a function of its state, look-ups change
none of them and a removal changes no other one; which keys have a size, and which one, is left
open. On such a catalog a sweep goes through, and what it reports is a matter of the candidates and
of their sizes alone: neither their order nor whether they are deleted counts.

1. `PlainStore.settled`: stores without faults are settled for digest keys.
2. `reclaimAll_settled`: what a sweep does on a settled catalog.
3. `sum_present_le`: the candidates' listed bytes are part of all listed bytes.
4. `sweep_indifferent`: a dry run, a real run and all their orders have one status.
-/

namespace BlobVault

open CatalogEvent

/-- As long as `Good` holds, the sizes of digest keys are those of `sizeOf`: a look-up finds them
and changes none, and removing a key changes the size of no other. -/
structure Catalog.Settled {σ : Type} (c : Catalog σ) (algorithm : DigestAlgorithm)
    (Good : σ → Prop) (sizeOf : σ → String → Option Nat) : Prop where
  look : ∀ {s : σ} {key : String}, Good s → algorithm.isDigest key = true →
    ∃ t, c.size? key s = .ok (sizeOf s key) t ∧ Good t ∧
      ∀ k, algorithm.isDigest k = true → sizeOf t k = sizeOf s k
  remove : ∀ {s : σ} {key : String}, Good s → algorithm.isDigest key = true →
    Good (c.remove key s) ∧
      ∀ k, k ≠ key → algorithm.isDigest k = true → sizeOf (c.remove key s) k = sizeOf s k

/-- Without faults, and below a canonical root, the catalog of a store is settled. -/
theorem PlainStore.settled {p : PlainStore} (hp : p.Canonical) (algorithm : DigestAlgorithm) :
    p.catalog.Settled algorithm p.Quiet fun w key =>
      (p.objects w)[p.root ++ key]?.map List.length where
  look {w key} hw hkey := by
    obtain ⟨v, hsize, hlooks⟩ := size?_catalog hw key
    refine ⟨v, ?_, hw.of_looks hlooks, fun k _ => by rw [objects_of_looks hlooks]⟩
    rw [hsize]
    unfold hold?
    rw [address_of_isDigest hp hkey]
  remove {w key} hw hkey := by
    obtain ⟨hquiet, hobjects⟩ := objects_remove hp hw hkey
    refine ⟨hquiet, fun k hne _ => ?_⟩
    rw [hobjects, getElem?_erase_of_ne]
    exact fun h => hne (root_append_inj h).symm

/-- The keys that have a size, with it. -/
def present (sizeOf : String → Option Nat) (keys : List String) : List (String × Nat) :=
  keys.filterMap fun key => (sizeOf key).map (key, ·)

theorem mem_present {sizeOf : String → Option Nat} {keys : List String} {key : String}
    {size : Nat} : (key, size) ∈ present sizeOf keys ↔ key ∈ keys ∧ sizeOf key = some size := by
  unfold present
  rw [List.mem_filterMap]
  constructor
  · rintro ⟨k, hk, hsize⟩
    obtain ⟨n, hn, heq⟩ := Option.map_eq_some_iff.1 hsize
    obtain ⟨rfl, rfl⟩ := Prod.mk.inj heq
    exact ⟨hk, hn⟩
  · rintro ⟨hkey, hsize⟩
    exact ⟨key, hkey, by rw [hsize]; rfl⟩

theorem present_cons_none {sizeOf : String → Option Nat} {key : String} {keys : List String}
    (h : sizeOf key = none) : present sizeOf (key :: keys) = present sizeOf keys := by
  unfold present
  rw [List.filterMap_cons, h]
  rfl

theorem present_cons_some {sizeOf : String → Option Nat} {key : String} {keys : List String}
    {size : Nat} (h : sizeOf key = some size) :
    present sizeOf (key :: keys) = (key, size) :: present sizeOf keys := by
  unfold present
  rw [List.filterMap_cons, h]
  rfl

theorem present_congr {f g : String → Option Nat} {keys : List String}
    (h : ∀ key ∈ keys, f key = g key) : present f keys = present g keys :=
  List.filterMap_congr fun key hkey => by rw [h key hkey]

/-- A candidate is present once at most. -/
theorem nodup_present {sizeOf : String → Option Nat} {keys : List String} (h : keys.Nodup) :
    (present sizeOf keys).Nodup := by
  refine h.filterMap fun a b blob ha hb => ?_
  obtain ⟨n, -, rfl⟩ := Option.map_eq_some_iff.1 ha
  obtain ⟨m, -, heq⟩ := Option.map_eq_some_iff.1 hb
  exact (Prod.mk.inj heq).1.symm

/-- The totals of reclaimed blobs do not depend on their order. -/
theorem GcStatus.reclaimEach_perm {sizes sizes' : List (String × Nat)} (h : sizes.Perm sizes')
    (status : GcStatus) : status.reclaimEach sizes = status.reclaimEach sizes' := by
  rw [reclaimEach_eq, reclaimEach_eq, (h.map Prod.snd).sum_nat, h.length_eq]

namespace GarbageCollector

variable {σ : Type} (gc : GarbageCollector σ) {Good : σ → Prop} {sizeOf : σ → String → Option Nat}

/-- The collector with this order of its sweeps. -/
def inOrder (order : SweepOrder) : GarbageCollector σ := { gc with order }

/-- On a settled catalog a sweep reclaims the candidates that are present, in the order in which it
takes them, and changes the size of no key that it does not remove. -/
theorem reclaimAll_settled (hc : gc.catalog.Settled gc.algorithm Good sizeOf) {keys : List String}
    (hnodup : keys.Nodup) (hdigest : ∀ key ∈ keys, gc.algorithm.isDigest key = true) {s : σ}
    (hs : Good s) (delete : Bool) (status : GcStatus) (log : List CatalogEvent) :
    ∃ t more, gc.watched.reclaimAll delete keys status (s, log) =
        .ok (status.reclaimEach (present (sizeOf s) keys)) (t, log ++ more) ∧
      removals more = (if delete then (present (sizeOf s) keys).map Prod.fst else []) ∧
      ∀ k ∉ removals more, gc.algorithm.isDigest k = true → sizeOf t k = sizeOf s k := by
  induction keys generalizing s status log with
  | nil =>
    refine ⟨s, [], ?_, by cases delete <;> rfl, fun k _ _ => rfl⟩
    rw [List.append_nil]
    rfl
  | cons key keys ih =>
    obtain ⟨hnotin, hnodup⟩ := List.nodup_cons.1 hnodup
    obtain ⟨hkey, hkeys⟩ := List.forall_mem_cons.1 hdigest
    obtain ⟨t, hsize, ht, hsame⟩ := hc.look hs hkey
    cases hfound : sizeOf s key with
    | none =>
      rw [hfound] at hsize
      obtain ⟨u, more, hrun, hremoved, hrest⟩ := ih hnodup hkeys ht status log
      have hpresent : present (sizeOf s) (key :: keys) = present (sizeOf t) keys := by
        rw [present_cons_none hfound]
        exact present_congr fun k hk => (hsame k (hkeys k hk)).symm
      refine ⟨u, more, ?_, hpresent ▸ hremoved, fun k hk hd => ?_⟩
      · rw [gc.watched_cons_none hsize, hrun, hpresent]
      · rw [hrest k hk hd, hsame k hd]
    | some size =>
      rw [hfound] at hsize
      -- the state with which the sweep goes on, and the sizes in it
      have hnext : Good (if delete then gc.catalog.remove key t else t) ∧
          ∀ k, k ∉ (if delete then [key] else []) → gc.algorithm.isDigest k = true →
            sizeOf (if delete then gc.catalog.remove key t else t) k = sizeOf s k := by
        cases delete with
        | false => exact ⟨ht, fun k _ hd => hsame k hd⟩
        | true =>
          obtain ⟨hgood, hothers⟩ := hc.remove ht hkey
          refine ⟨hgood, fun k hk hd => ?_⟩
          rw [← hsame k hd]
          exact hothers k (fun heq => hk (List.mem_singleton.2 heq)) hd
      obtain ⟨u, more, hrun, hremoved, hrest⟩ := ih hnodup hkeys hnext.1 (status.reclaim size)
        (log ++ ofReclaim delete key size)
      have hpresent : present (sizeOf s) (key :: keys) = (key, size) ::
          present (sizeOf (if delete then gc.catalog.remove key t else t)) keys := by
        rw [present_cons_some hfound]
        congr 1
        refine present_congr fun k hk => (hnext.2 k ?_ (hkeys k hk)).symm
        cases delete with
        | false => exact List.not_mem_nil
        | true => exact fun h => hnotin (List.mem_singleton.1 h ▸ hk)
      refine ⟨u, ofReclaim delete key size ++ more, ?_, ?_, fun k hk hd => ?_⟩
      · rw [gc.watched_cons_some hsize, hrun, hpresent, GcStatus.reclaimEach_cons,
          List.append_assoc]
      · rw [removals_append, hremoved, hpresent, removals_ofReclaim]
        cases delete <;> rfl
      · rw [removals_append, removals_ofReclaim, List.mem_append, not_or] at hk
        rw [hrest k hk.2 hd, hnext.2 k hk.1 hd]

/-- Sweeps of a settled catalog come through, in every order, with the status of their candidates in
any order. -/
theorem sweep_settled (hc : gc.catalog.Settled gc.algorithm Good sizeOf) {pass : GcPass}
    (hid : pass.gcId = gc.id) (hnodup : pass.candidates.Nodup)
    (hdigest : ∀ key ∈ pass.candidates, gc.algorithm.isDigest key = true) {s : σ} (hs : Good s)
    (delete : Bool) (order : SweepOrder) :
    ∃ t log,
      (gc.inOrder order).sweep pass delete s =
        .ok (pass.status.reclaimEach (present (sizeOf s) pass.candidates)) t ∧
      (gc.inOrder order).watched.sweep pass delete (s, []) =
        .ok (pass.status.reclaimEach (present (sizeOf s) pass.candidates)) (t, log) ∧
      (removals log).Perm
        (if delete then (present (sizeOf s) pass.candidates).map Prod.fst else []) ∧
      ∀ k ∉ removals log, gc.algorithm.isDigest k = true → sizeOf t k = sizeOf s k := by
  have harranged := order.perm pass.candidates
  have hperm : (present (sizeOf s) (order.arrange pass.candidates)).Perm
      (present (sizeOf s) pass.candidates) := harranged.filterMap _
  obtain ⟨t, log, hwatched, hremoved, hrest⟩ :=
    (gc.inOrder order).reclaimAll_settled hc (harranged.nodup_iff.2 hnodup)
      (fun key hkey => hdigest key (harranged.mem_iff.1 hkey)) hs delete pass.status []
  rw [GcStatus.reclaimEach_perm hperm, List.nil_append] at hwatched
  refine ⟨t, log, ?_, ?_, ?_, hrest⟩
  · rw [(gc.inOrder order).sweep_eq pass delete hid]
    obtain ⟨u, more, -, -, ⟨e, -, herror⟩ | ⟨hrun, hok⟩⟩ :=
      (gc.inOrder order).reclaimAll_watched delete (order.arrange pass.candidates) pass.status s
        []
    · exact absurd (hwatched.symm.trans herror) nofun
    · obtain ⟨hstatus, hstate⟩ := EStateM.Result.ok.inj (hwatched.symm.trans hok)
      rw [hstatus, (Prod.mk.inj hstate).1]
      exact hrun
  · rw [(gc.inOrder order).watched.sweep_eq pass delete hid]
    exact hwatched
  · rw [hremoved]
    cases delete with
    | false => exact .refl _
    | true => exact hperm.map Prod.fst

/-- The listed bytes of some candidates are part of the bytes of all of them. -/
theorem sum_present_le {blobs : List ListedBlob} {keys : List String} (hnodup : keys.Nodup)
    {sizeOf : String → Option Nat}
    (hlisted : ∀ blob ∈ present sizeOf keys,
      ⟨blob.1, blob.2⟩ ∈ blobs.filter gc.algorithm.collects) :
    ((present sizeOf keys).map Prod.snd).sum ≤
      totalSize (blobs.filter gc.algorithm.collects) := by
  have hinj : Function.Injective fun blob : String × Nat => (⟨blob.1, blob.2⟩ : ListedBlob) := by
    rintro ⟨a, m⟩ ⟨b, n⟩ h
    obtain ⟨rfl, rfl⟩ := ListedBlob.mk.inj h
    rfl
  have hsubset : (present sizeOf keys).map (fun blob => (⟨blob.1, blob.2⟩ : ListedBlob)) ⊆
      blobs.filter gc.algorithm.collects := by
    intro blob hblob
    obtain ⟨found, hfound, rfl⟩ := List.mem_map.1 hblob
    exact hlisted found hfound
  obtain ⟨listed, hperm, hsub⟩ :=
    List.subperm_of_subset ((nodup_present hnodup).map hinj) hsubset
  have hsum := (hperm.map ListedBlob.size).sum_nat
  rw [List.map_map] at hsum
  rw [show (present sizeOf keys).map Prod.snd = (present sizeOf keys).map
    (ListedBlob.size ∘ fun blob => ⟨blob.1, blob.2⟩) from rfl, ← hsum]
  exact (hsub.map ListedBlob.size).sum_le_sum fun _ _ => Nat.zero_le _

/-- A pass starts with all that was listed, and then nothing in the listing failed. -/
theorem listed_of_begin {s t : σ} {begun : GcPass} (h : gc.begin s = .ok begun t) :
    ∃ blobs : List ListedBlob,
      gc.catalog.list s = (blobs.map .ok, t) ∧ begun = gc.passOf blobs := by
  cases hlist : gc.catalog.list s with
  | mk items u =>
    rcases Pager.items_eq_or items with ⟨blobs, rfl⟩ | ⟨blobs, e, rest, rfl⟩
    · rw [gc.begin_ok hlist] at h
      obtain ⟨hpass, rfl⟩ := EStateM.Result.ok.inj h
      exact ⟨blobs, rfl, hpass.symm⟩
    · rw [gc.begin_failure hlist] at h
      exact absurd h nofun

/-- **Dry runs and orders**: after any listing and any marks, all sweeps of a settled catalog come
through with one status, whether they delete or not and in whatever order they take the candidates.
Deleting removes the candidates that are present, the same ones in every order; a dry run removes
nothing. If what is present still has a size that was listed for it, and words can count the listed
bytes, then the bytes that are kept and the bytes that are reclaimed are the listed bytes
together. -/
theorem sweep_indifferent (hc : gc.catalog.Settled gc.algorithm Good sizeOf) {s₀ s₁ : σ}
    {begun : GcPass} (hbegin : gc.begin s₀ = .ok begun s₁) (marks : List String) {s : σ}
    (hs : Good s) :
    let pass := (begun.markEach marks).2
    let found := present (sizeOf s) pass.candidates
    ∃ status : GcStatus,
      (∀ order : SweepOrder, ∃ t log,
        (gc.inOrder order).sweep pass true s = .ok status t ∧
        (gc.inOrder order).watched.sweep pass true (s, []) =
          .ok status (t, log) ∧
        (removals log).Perm (found.map Prod.fst) ∧
        ∀ k ∉ removals log, gc.algorithm.isDigest k = true → sizeOf t k = sizeOf s k) ∧
      (∀ order : SweepOrder, ∃ t log,
        (gc.inOrder order).sweep pass false s = .ok status t ∧
        (gc.inOrder order).watched.sweep pass false (s, []) =
          .ok status (t, log) ∧
        removals log = [] ∧
        ∀ k, gc.algorithm.isDigest k = true → sizeOf t k = sizeOf s k) ∧
      ((∀ blob ∈ found, .ok ⟨blob.1, blob.2⟩ ∈ (gc.catalog.list s₀).1) →
        totalSize ((received (gc.catalog.list s₀).1).filter gc.algorithm.collects) < 2 ^ 64 →
        status.totals.sizeBinaries + status.totals.sizeBinariesGc =
          pass.status.totals.sizeBinaries) := by
  intro pass found
  obtain ⟨blobs, hlist, rfl⟩ := gc.listed_of_begin hbegin
  have hpass : pass = { gc.passOf blobs with
      candidates := (gc.passOf blobs).candidates.filter fun k => !marks.contains k } :=
    GcPass.markEach_eq (gc.nodup_passOf blobs) marks
  have hid : pass.gcId = gc.id := by
    rw [hpass]
    exact GcPass.gcId_foldl_add blobs
  have hnodup : pass.candidates.Nodup := by
    rw [hpass]
    exact (gc.nodup_passOf blobs).filter _
  have hlisted : ∀ key ∈ pass.candidates, key ∈ (gc.passOf blobs).candidates := by
    intro key hkey
    rw [hpass] at hkey
    exact List.mem_of_mem_filter hkey
  have hdigest : ∀ key ∈ pass.candidates, gc.algorithm.isDigest key = true :=
    fun key hkey => isDigest_of_begin hbegin key (hlisted key hkey)
  have hsweep := gc.sweep_settled hc hid hnodup hdigest hs
  refine ⟨pass.status.reclaimEach found, hsweep true, fun order => ?_, fun hsame hbytes => ?_⟩
  · obtain ⟨t, log, hrun, hwatched, hperm, hrest⟩ := hsweep false order
    have hnone : removals log = [] := hperm.eq_nil
    refine ⟨t, log, hrun, hwatched, hnone, fun k hd => hrest k ?_ hd⟩
    rw [hnone]
    exact List.not_mem_nil
  · have hle : (found.map Prod.snd).sum ≤ totalSize (blobs.filter gc.algorithm.collects) := by
      refine gc.sum_present_le hnodup fun blob hblob => List.mem_filter.2 ⟨?_, ?_⟩
      · have hitem := hsame blob hblob
        rw [hlist, List.mem_map] at hitem
        obtain ⟨listed, hmem, heq⟩ := hitem
        rwa [← Except.ok.inj heq]
      · exact hdigest _ (mem_present.1 hblob).1
    have hstatus : pass.status = (gc.passOf blobs).status := by rw [hpass]
    rw [hlist, received_map_ok] at hbytes
    unfold GcStatus.totals
    rw [GcStatus.reclaimEach_eq, hstatus, status_passOf]
    simp only [GcStatus.toNat_lower, UInt64.zero_add]
    rw [UInt64.toNat_ofNat_of_lt' hbytes, UInt64.toNat_ofNat_of_lt' (hle.trans_lt hbytes)]
    exact Nat.sub_add_cancel hle

/-- Two digests in memory, one of them marked: a dry run and a real run, in any order. -/
theorem sweep_indifferent_in_memory :
    let m : MemoryStore := { name := "gc", memory := "gc", tempDir := .scratch "temps" }
    let blobs : Blobs :=
      (Std.ExtTreeMap.insert ∅ "acbd18db4cc2f85cedef654fccc4a4d8" [1, 2, 3]).insert
        "37b51d194a7513e45b56f6524f2d51f2" [1]
    let w : World := ({} : World).setMemory "gc" blobs
    let gc : GarbageCollector World := ⟨m.catalog, .md5, 1, .listed⟩
    ∃ begun status, gc.begin w = .ok begun w ∧
      (∀ order, ∃ u, (gc.inOrder order).sweep
        (begun.markEach ["acbd18db4cc2f85cedef654fccc4a4d8"]).2 true w = .ok status u) ∧
      (∀ order, ∃ u, (gc.inOrder order).sweep
        (begun.markEach ["acbd18db4cc2f85cedef654fccc4a4d8"]).2 false w = .ok status u) ∧
      status.totals.sizeBinaries + status.totals.sizeBinariesGc =
        (begun.markEach ["acbd18db4cc2f85cedef654fccc4a4d8"]).2.status.totals.sizeBinaries := by
  intro m blobs w gc
  obtain ⟨listed, hlist, hlists⟩ := PlainStore.list_memory m w
  have hbegin : gc.begin w = .ok (gc.passOf listed) w := gc.begin_ok hlist
  have hsettled : gc.catalog.Settled gc.algorithm (PlainStore.memory m).Quiet _ :=
    PlainStore.settled (p := .memory m) trivial gc.algorithm
  obtain ⟨status, hreal, hdry, htotal⟩ := gc.sweep_indifferent hsettled hbegin
    ["acbd18db4cc2f85cedef654fccc4a4d8"] (s := w) trivial
  have hbytes :
      totalSize ((received (gc.catalog.list w).1).filter gc.algorithm.collects) = 4 := by
    subst gc w blobs m
    cbv
  refine ⟨_, status, hbegin, fun order => ?_, fun order => ?_, htotal (fun blob hblob => ?_) ?_⟩
  · obtain ⟨u, log, hrun, -⟩ := hreal order
    exact ⟨u, hrun⟩
  · obtain ⟨u, log, hrun, -⟩ := hdry order
    exact ⟨u, hrun⟩
  · obtain ⟨hcand, hsize⟩ := mem_present.1 hblob
    have hdigest := isDigest_of_begin hbegin _ (GcPass.mem_of_markEach hcand)
    show _ ∈ (m.catalog.list w).1
    rw [hlist]
    exact List.mem_map_of_mem ((hlists.sizes gc.algorithm ⟨blob.1, blob.2⟩ hdigest).2 hsize)
  · rw [hbytes]
    decide

end GarbageCollector

end BlobVault
