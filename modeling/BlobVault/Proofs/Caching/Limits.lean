import BlobVault.Proofs.Eviction

/-!
# Down to the limits

An eviction removes what it must and no more: oldest first, never a file below the minimum age or
the one to keep, and it stops as soon as the count is within the limits. The count is kept in words
of 64 bits. It is the true one in every directory that words can count, and what an eviction reports
is then what it did.

1. `EvictionStats.initial_eq`, `EvictionStats.removeAll_eq`: the count after some files are removed.
2. `CacheDir.perm_without`: the files that go and the files that stay are all files.
3. `CacheDir.count_eq`: the count is about the directory as it is then.
4. `CacheDir.Countable`: what words can count.
5. `CacheLimits.Sheds`, `CacheLimits.Settles`: what an eviction may do.
6. `FileCache.evictExcept_sheds`: evictions do that, in every directory.
-/

namespace BlobVault

open Std (ExtTreeMap)

/-! ## Counting -/

/-- The bytes of some files. -/
def totalBytes (files : List CachedFile) : Nat := (files.map CachedFile.size).sum

theorem totalBytes_cons (f : CachedFile) (files : List CachedFile) :
    totalBytes (f :: files) = f.size + totalBytes files := List.sum_cons

theorem totalBytes_append (files more : List CachedFile) :
    totalBytes (files ++ more) = totalBytes files + totalBytes more := by
  unfold totalBytes
  rw [List.map_append, List.sum_append]

theorem totalBytes_of_perm {files more : List CachedFile} (h : files.Perm more) :
    totalBytes files = totalBytes more := (h.map CachedFile.size).sum_nat

namespace EvictionStats

theorem initial_eq (files : List CachedFile) :
    initial files = { remaining := .ofNat files.length
                      remainingBytes := .ofNat (totalBytes files) } := by
  have hfold : ∀ n : UInt64, files.foldl (fun n file => n + .ofNat file.size) n =
      n + .ofNat (totalBytes files) := by
    induction files with
    | nil => exact fun n => (UInt64.add_zero n).symm
    | cons f files ih =>
      intro n
      rw [List.foldl_cons, ih, totalBytes_cons, UInt64.ofNat_add, UInt64.add_assoc]
  unfold initial
  rw [hfold, UInt64.zero_add]

theorem removeAll_eq (s : EvictionStats) (gone : List CachedFile) :
    s.removeAll gone =
      { removed := s.removed + .ofNat gone.length
        removedBytes := s.removedBytes + .ofNat (totalBytes gone)
        remaining := s.remaining - .ofNat gone.length
        remainingBytes := s.remainingBytes - .ofNat (totalBytes gone) } := by
  induction gone generalizing s with
  | nil =>
    show s = ⟨s.removed + 0, s.removedBytes + 0, s.remaining - 0, s.remainingBytes - 0⟩
    simp only [add_zero, sub_zero]
  | cons f gone ih =>
    show (s.remove f.size).removeAll gone = _
    rw [ih, totalBytes_cons, List.length_cons, Nat.add_comm gone.length]
    simp only [remove, UInt64.ofNat_add, UInt64.ofNat_one, add_assoc, sub_sub]

end EvictionStats

/-! ## The files that stay -/

namespace CacheDir

/-- The directory without some of its files. -/
def without (d : CacheDir) (gone : List CachedFile) : CacheDir :=
  d.eraseAll (gone.map CachedFile.name)

/-- The files of the directory are within the limits. -/
def Within (d : CacheDir) (l : CacheLimits) : Prop :=
  totalBytes d.files ≤ l.maxSize ∧ d.files.length ≤ l.maxCount

variable {d : CacheDir} {l : CacheLimits} {gone : List CachedFile} {f g : CachedFile}
  {name : String}

theorem getElem?_without (d : CacheDir) (gone : List CachedFile) (name : String) :
    (d.without gone).entries[name]? =
      if name ∈ gone.map CachedFile.name then none else d.entries[name]? :=
  d.getElem?_eraseAll _ name

theorem pairwise_files (d : CacheDir) : d.files.Pairwise fun f g => f.name ≠ g.name := by
  refine List.Pairwise.filterMap _ ?_ ExtTreeMap.distinct_keys_toList
  rintro ⟨name, node⟩ ⟨name', node'⟩ hne f hf g hg hname
  cases node with
  | directory => exact absurd hf nofun
  | file content t _ =>
    cases node' with
    | directory => exact absurd hg nofun
    | file content' t' _ =>
      obtain rfl := Option.some.inj hf
      obtain rfl := Option.some.inj hg
      exact hne (Std.LawfulEqCmp.compare_eq_iff_eq.2 hname)

theorem nodup_files (d : CacheDir) : d.files.Nodup :=
  d.pairwise_files.imp fun hne heq => hne (congrArg CachedFile.name heq)

/-- A file of a directory is known by its name. -/
theorem eq_of_name (hf : f ∈ d.files) (hg : g ∈ d.files) (h : f.name = g.name) : f = g := by
  obtain ⟨content, _, hentry, hsize⟩ := mem_files.1 hf
  obtain ⟨content', _, hentry', hsize'⟩ := mem_files.1 hg
  rw [h, hentry'] at hentry
  obtain ⟨rfl, hmodified, -⟩ := CacheNode.file.inj (Option.some.inj hentry)
  cases f
  cases g
  exact (CachedFile.mk.injEq ..).mpr ⟨h, hsize.trans hsize'.symm, hmodified.symm⟩

/-- The files that stay. -/
theorem mem_files_without (hgone : ∀ f ∈ gone, f ∈ d.files) :
    f ∈ (d.without gone).files ↔ f ∈ d.files ∧ f ∉ gone := by
  have hnames : f ∈ d.files → (f.name ∈ gone.map CachedFile.name ↔ f ∈ gone) := by
    refine fun hf => ⟨fun hname => ?_, List.mem_map_of_mem⟩
    obtain ⟨g, hg, hname⟩ := List.mem_map.1 hname
    exact eq_of_name (hgone g hg) hf hname ▸ hg
  constructor
  · intro hf
    obtain ⟨content, writable, hentry, hsize⟩ := mem_files.1 hf
    rw [getElem?_without] at hentry
    split at hentry
    · exact absurd hentry nofun
    · rename_i hname
      have hmem := mem_files.2 ⟨content, writable, hentry, hsize⟩
      exact ⟨hmem, fun hg => hname ((hnames hmem).2 hg)⟩
  · rintro ⟨hf, hstays⟩
    obtain ⟨content, writable, hentry, hsize⟩ := mem_files.1 hf
    refine mem_files.2 ⟨content, writable, ?_, hsize⟩
    rw [getElem?_without, if_neg fun hname => hstays ((hnames hf).1 hname), hentry]

/-- The files that go and the files that stay are all files. -/
theorem perm_without (hnodup : gone.Nodup) (hgone : ∀ f ∈ gone, f ∈ d.files) :
    (gone ++ (d.without gone).files).Perm d.files := by
  refine (List.perm_ext_iff_of_nodup ?_ d.nodup_files).2 fun f => ?_
  · refine List.nodup_append.2 ⟨hnodup, nodup_files _, fun f hf g hg heq => ?_⟩
    exact ((mem_files_without hgone).1 hg).2 (heq ▸ hf)
  · rw [List.mem_append, mem_files_without hgone]
    exact ⟨fun h => h.elim (hgone f) And.left, fun hf => or_iff_not_imp_left.2 (⟨hf, ·⟩)⟩

/-- What words say of some files of the directory and of the others. -/
def count (d : CacheDir) (gone : List CachedFile) : EvictionStats where
  removed := .ofNat gone.length
  removedBytes := .ofNat (totalBytes gone)
  remaining := .ofNat (d.without gone).files.length
  remainingBytes := .ofNat (totalBytes (d.without gone).files)

/-- The count after some files are removed is about the directory without them. -/
theorem count_eq (hnodup : gone.Nodup) (hgone : ∀ f ∈ gone, f ∈ d.files) {listed : List CachedFile}
    (hlisted : listed.Perm d.files) : (EvictionStats.initial listed).removeAll gone = d.count gone := by
  have hperm := (perm_without hnodup hgone).trans hlisted.symm
  have hlength := hperm.length_eq
  have hbytes := totalBytes_of_perm hperm
  rw [List.length_append] at hlength
  rw [totalBytes_append] at hbytes
  rw [EvictionStats.removeAll_eq, EvictionStats.initial_eq, ← hlength, ← hbytes]
  simp only [count, UInt64.ofNat_add, zero_add, add_sub_cancel_left]

/-- Words can count the files of the directory and their bytes. -/
structure Countable (d : CacheDir) : Prop where
  files : d.files.length < 2 ^ 64
  bytes : totalBytes d.files < 2 ^ 64

namespace Countable

variable (hd : d.Countable) (hnodup : gone.Nodup) (hgone : ∀ f ∈ gone, f ∈ d.files)

include hd hnodup hgone

/-- What words say is then true. -/
theorem toNat_count :
    (d.count gone).removed.toNat = gone.length ∧
      (d.count gone).removedBytes.toNat = totalBytes gone ∧
      (d.count gone).remaining.toNat = (d.without gone).files.length ∧
      (d.count gone).remainingBytes.toNat = totalBytes (d.without gone).files := by
  have hperm := perm_without hnodup hgone
  have hlength : gone.length + (d.without gone).files.length < 2 ^ 64 := by
    rw [← List.length_append, hperm.length_eq]
    exact hd.files
  have hbytes : totalBytes gone + totalBytes (d.without gone).files < 2 ^ 64 := by
    rw [← totalBytes_append, totalBytes_of_perm hperm]
    exact hd.bytes
  exact ⟨UInt64.toNat_ofNat_of_lt' ((Nat.le_add_right _ _).trans_lt hlength),
    UInt64.toNat_ofNat_of_lt' ((Nat.le_add_right _ _).trans_lt hbytes),
    UInt64.toNat_ofNat_of_lt' ((Nat.le_add_left _ _).trans_lt hlength),
    UInt64.toNat_ofNat_of_lt' ((Nat.le_add_left _ _).trans_lt hbytes)⟩

theorem within_iff : (d.count gone).within l = true ↔ (d.without gone).Within l := by
  obtain ⟨-, -, hremaining, hbytes⟩ := hd.toNat_count hnodup hgone
  unfold EvictionStats.within Within
  rw [Bool.and_eq_true, decide_eq_true_iff, decide_eq_true_iff, hremaining, hbytes]

end Countable

end CacheDir

/-! ## What an eviction does -/

theorem CachedFile.isYoung_iff {f : CachedFile} {l : CacheLimits} {now : Instant} :
    f.isYoung l now = true ↔ max 0 (now - f.modified) < l.minAge := decide_eq_true_iff

/-- Of files in the order of their times, all are young that follow a young one. -/
theorem CachedFile.isYoung_of_mem_drop {l : CacheLimits} {now : Instant} {files : List CachedFile}
    {n : Nat} (hsorted : files.Pairwise fun f g => f.modified ≤ g.modified)
    (hyoung : ∀ f ∈ (files.drop n).head?, f.isYoung l now = true) {f : CachedFile}
    (hf : f ∈ files.drop n) : f.isYoung l now = true := by
  have hrest := hsorted.drop (i := n)
  cases hdrop : files.drop n with
  | nil => exact absurd (hdrop ▸ hf) List.not_mem_nil
  | cons g rest =>
    rw [hdrop] at hf hyoung hrest
    have hg := hyoung g rfl
    rcases List.mem_cons.1 hf with rfl | hmem
    · exact hg
    · have hle := (List.pairwise_cons.1 hrest).1 f hmem
      rw [isYoung_iff] at hg ⊢
      exact (max_le_max_left 0 (Int.sub_le_sub_left hle now)).trans_lt hg

/-- An eviction may remove these files of a directory, in this order, and report this count. -/
structure CacheLimits.Sheds (l : CacheLimits) (now : Instant) (keep? : Option String)
    (d : CacheDir) (gone : List CachedFile) (stats : EvictionStats) : Prop where
  /-- In an order of the files by time, they are the first but for the one to keep. -/
  oldest : ∃ order : List CachedFile, order.Perm d.files ∧
    order.Pairwise (fun f g => f.modified ≤ g.modified) ∧ gone <+: exposed keep? order
  /-- They have the minimum age. A time in the future counts as now. -/
  aged : ∀ f ∈ gone, l.minAge ≤ max 0 (now - f.modified)
  /-- Before each removal the count is beyond the limits. -/
  needed : ∀ m < gone.length, ¬ (d.count (gone.take m)).within l = true
  /-- In the end it is within them, or all is young that stays, but for the one to keep. -/
  settled : (d.count gone).within l = true ∨ ∀ f ∈ (d.without gone).files, keep? ≠ some f.name →
    max 0 (now - f.modified) < l.minAge
  /-- The one to keep stays as it is. -/
  keeps : ∀ name, keep? = some name → (d.without gone).entries[name]? = d.entries[name]?
  /-- What is no regular file stays, the directory for temporary files included. -/
  others : ∀ name : String,
    (∀ content t writable, d.entries[name]? ≠ some (.file content t writable)) →
    (d.without gone).entries[name]? = d.entries[name]?
  temps : (d.without gone).temps? = d.temps?
  counts : stats = d.count gone

/-- An eviction that removes these files and reports this count goes no further than it must, and
its count is exact. -/
structure CacheLimits.Settles (l : CacheLimits) (now : Instant) (keep? : Option String)
    (d : CacheDir) (gone : List CachedFile) (stats : EvictionStats) : Prop where
  /-- Before each removal the directory is beyond the limits. -/
  needed : ∀ m < gone.length, ¬ (d.without (gone.take m)).Within l
  /-- In the end it is within them, or all is young that stays, but for the one to keep. -/
  settled : (d.without gone).Within l ∨ ∀ f ∈ (d.without gone).files, keep? ≠ some f.name →
    max 0 (now - f.modified) < l.minAge
  /-- The count is what was removed and what the directory then holds. -/
  removed : stats.removed.toNat = gone.length
  removedBytes : stats.removedBytes.toNat = totalBytes gone
  remaining : stats.remaining.toNat = (d.without gone).files.length
  remainingBytes : stats.remainingBytes.toNat = totalBytes (d.without gone).files
  /-- Together that is what the directory held. -/
  files : stats.removed.toNat + stats.remaining.toNat = d.files.length
  bytes : stats.removedBytes.toNat + stats.remainingBytes.toNat = totalBytes d.files
  /-- No removal takes more off the count than there is. -/
  covered : ∀ m f, gone[m]? = some f →
    let s := (EvictionStats.initial (d.filesAt now)).removeAll (gone.take m)
    1 ≤ s.remaining.toNat ∧ f.size ≤ s.remainingBytes.toNat

/-- The files that go are files of the directory, each of them once. -/
theorem CacheLimits.Sheds.mem_files {l : CacheLimits} {now : Instant} {keep? : Option String}
    {d : CacheDir} {gone : List CachedFile} {stats : EvictionStats}
    (h : l.Sheds now keep? d gone stats) : gone.Nodup ∧ ∀ f ∈ gone, f ∈ d.files := by
  obtain ⟨order, hperm, -, hfront⟩ := h.oldest
  have hgone : gone.Sublist order := hfront.sublist.trans (List.filter_sublist)
  exact ⟨(hperm.nodup_iff.2 d.nodup_files).sublist hgone, fun f hf =>
    hperm.mem_iff.1 (hgone.subset hf)⟩

/-- Where words can count, nothing is lost by counting in words. -/
theorem CacheLimits.Sheds.settles {l : CacheLimits} {now : Instant} {keep? : Option String}
    {d : CacheDir} {gone : List CachedFile} {stats : EvictionStats}
    (h : l.Sheds now keep? d gone stats) (hd : d.Countable) :
    l.Settles now keep? d gone stats := by
  obtain ⟨hnodup, hfiles⟩ := h.mem_files
  -- what holds of all that goes holds of the first of them
  have hfront : ∀ m, (gone.take m).Nodup ∧ ∀ f ∈ gone.take m, f ∈ d.files := fun m =>
    ⟨hnodup.sublist (List.take_sublist m gone), fun f hf => hfiles f (List.mem_of_mem_take hf)⟩
  have hall := CacheDir.perm_without hnodup hfiles
  obtain ⟨hremoved, hremovedBytes, hremaining, hremainingBytes⟩ := hd.toNat_count hnodup hfiles
  rw [← h.counts] at hremoved hremovedBytes hremaining hremainingBytes
  exact {
    needed := fun m hm => by
      rw [← hd.within_iff (hfront m).1 (hfront m).2]
      exact h.needed m hm
    settled := h.settled.imp_left (hd.within_iff hnodup hfiles).1
    removed := hremoved
    removedBytes := hremovedBytes
    remaining := hremaining
    remainingBytes := hremainingBytes
    files := by rw [hremoved, hremaining, ← hall.length_eq, List.length_append]
    bytes := by
      rw [hremovedBytes, hremainingBytes, ← totalBytes_of_perm hall, totalBytes_append]
    covered := by
      intro m f hf
      obtain ⟨-, -, hleft, hleftBytes⟩ := hd.toNat_count (hfront m).1 (hfront m).2
      dsimp only
      rw [CacheDir.count_eq (hfront m).1 (hfront m).2 (d.filesAt_perm now), hleft, hleftBytes]
      have hlater : f ∈ gone.drop m := List.mem_of_getElem? (i := 0) (by rwa [List.getElem?_drop])
      have hthere : f ∈ (d.without (gone.take m)).files := by
        refine (CacheDir.mem_files_without (hfront m).2).2 ⟨hfiles f (List.mem_of_getElem? hf), ?_⟩
        exact fun hearlier => List.disjoint_take_drop hnodup (le_refl m) hearlier hlater
      exact ⟨List.length_pos_of_mem hthere, List.le_sum_of_mem (List.mem_map_of_mem hthere)⟩ }

/-- An eviction of the files of a directory removes some of them and counts them. -/
theorem CacheDir.exists_sheds (d : CacheDir) (l : CacheLimits) (now : Instant)
    (keep? : Option String) :
    ∃ gone stats, evict l now keep? (d.filesAt now) = (stats, gone.map CachedFile.name) ∧
      l.Sheds now keep? d gone stats := by
  obtain ⟨n, hrun, hold, hneeded, hend⟩ :=
    evictFrom_eq l now keep? (byAge (d.filesAt now)) (.initial (d.filesAt now))
  have hlisted := d.filesAt_perm now
  have hperm := (byAge_perm (d.filesAt now)).trans hlisted
  have hsorted := byAge_sorted (d.filesAt now)
  unfold evict
  generalize byAge (d.filesAt now) = order at *
  have hmem : ∀ f ∈ exposed keep? (order.take n), f ∈ order.take n ∧ keep? ≠ some f.name :=
    fun f hf => ⟨(List.mem_filter.1 hf).1, of_decide_eq_true (List.mem_filter.1 hf).2⟩
  have hfiles : ∀ f ∈ exposed keep? (order.take n), f ∈ d.files := fun f hf =>
    hperm.mem_iff.1 (List.mem_of_mem_take (hmem f hf).1)
  have hnodup : (exposed keep? (order.take n)).Nodup :=
    ((hperm.nodup_iff.2 d.nodup_files).sublist (List.take_sublist n _)).filter _
  generalize hgone : exposed keep? (order.take n) = gone at *
  have hkept : ∀ name, keep? = some name → name ∉ gone.map CachedFile.name := by
    intro name hkeep hname
    obtain ⟨f, hf, rfl⟩ := List.mem_map.1 hname
    exact (hmem f hf).2 hkeep
  have hcount : ∀ m, (EvictionStats.initial (d.filesAt now)).removeAll (gone.take m) =
      d.count (gone.take m) := fun m =>
    CacheDir.count_eq (hnodup.sublist (List.take_sublist m gone))
      (fun f hf => hfiles f (List.mem_of_mem_take hf)) hlisted
  have hall := CacheDir.count_eq hnodup hfiles hlisted
  refine ⟨gone, _, hrun, ?_⟩
  exact {
    oldest := ⟨order, hperm, hsorted, hgone ▸ (List.take_prefix n _).filter _⟩
    aged := fun f hf => not_lt.1 fun hyoung =>
      hold f (hmem f hf).1 (CachedFile.isYoung_iff.2 hyoung)
    needed := fun m hm => hcount m ▸ hneeded m hm
    settled := by
      rw [← hall]
      refine hend.imp_right fun hyoung f hf hkeep => ?_
      obtain ⟨hmemd, hstays⟩ := (CacheDir.mem_files_without hfiles).1 hf
      have hback := mem_drop_of_stays (n := n) (hperm.mem_iff.2 hmemd) hkeep (hgone ▸ hstays)
      exact CachedFile.isYoung_iff.1 (CachedFile.isYoung_of_mem_drop hsorted hyoung hback)
    keeps := fun name hkeep => by
      rw [CacheDir.getElem?_without, if_neg (hkept name hkeep)]
    others := fun name hnode => by
      rw [CacheDir.getElem?_without, if_neg]
      intro hname
      obtain ⟨f, hf, rfl⟩ := List.mem_map.1 hname
      obtain ⟨content, writable, hentry, -⟩ := CacheDir.mem_files.1 (hfiles f hf)
      exact hnode content f.modified writable hentry
    temps := rfl
    counts := hall }

end BlobVault
