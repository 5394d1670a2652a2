import BlobVault.Cache
import BlobVault.Proofs.World

/-!
# Evictions

An eviction goes through the files of a directory from the least recently used one on, and takes
away all that it passes but the one to keep. Where it stops is a matter of the limits; the laws here
hold wherever that is.

1. `evictFrom_eq`: what goes is a front of the files, but for the one to keep, and none of it is
   young; it is no longer than it has to be.
2. `mem_evict`: whatever goes was used no later than what stays.
3. `CacheDir.getElem?_eraseAll`, `CacheDir.mem_files`: directories as lists of files.
4. `CacheDir.filesAt_perm`: the files of a directory, in whatever order they are listed.
-/

namespace BlobVault

open Std (ExtTreeMap)

/-! ## Lists of files -/

section

variable {l : CacheLimits} {now : Instant} {keep? : Option String} {files : List CachedFile}
  {name : String}

/-- The files that may go: all but the one to keep. -/
def exposed (keep? : Option String) (files : List CachedFile) : List CachedFile :=
  files.filter fun f => keep? ≠ some f.name

theorem exposed_cons_of_eq {f : CachedFile} (h : keep? = some f.name) (files : List CachedFile) :
    exposed keep? (f :: files) = exposed keep? files :=
  List.filter_cons_of_neg (by simpa using h)

theorem exposed_cons_of_ne {f : CachedFile} (h : keep? ≠ some f.name) (files : List CachedFile) :
    exposed keep? (f :: files) = f :: exposed keep? files :=
  List.filter_cons_of_pos (by simpa using h)

/-- The count after some files are removed, one after the other. -/
def EvictionStats.removeAll (s : EvictionStats) (files : List CachedFile) : EvictionStats :=
  files.foldl (fun s f => s.remove f.size) s

/-- The files that go are a front of all, but for the one to keep. The front has no young ones. What
is there is beyond the limits before each removal, and within them in the end, unless the front is
followed by a young file or by none. -/
theorem evictFrom_eq (l : CacheLimits) (now : Instant) (keep? : Option String)
    (files : List CachedFile) (s : EvictionStats) :
    ∃ n, evictFrom l now keep? files s =
        (s.removeAll (exposed keep? (files.take n)),
          (exposed keep? (files.take n)).map CachedFile.name) ∧
      (∀ f ∈ files.take n, ¬ f.isYoung l now = true) ∧
      (∀ m < (exposed keep? (files.take n)).length,
        ¬ (s.removeAll ((exposed keep? (files.take n)).take m)).within l = true) ∧
      ((s.removeAll (exposed keep? (files.take n))).within l = true ∨
        ∀ f ∈ (files.drop n).head?, f.isYoung l now = true) := by
  induction files generalizing s with
  | nil => exact ⟨0, rfl, nofun, nofun, .inr nofun⟩
  | cons f files ih =>
    unfold evictFrom
    split
    · rename_i hwithin
      exact ⟨0, rfl, nofun, nofun, .inl hwithin⟩
    rename_i hbeyond
    split
    · rename_i hyoung
      refine ⟨0, rfl, nofun, nofun, .inr fun g hg => ?_⟩
      obtain rfl := Option.some.inj hg
      exact hyoung
    rename_i hold
    have hfront : ∀ n, (∀ g ∈ files.take n, ¬ g.isYoung l now = true) →
        ∀ g ∈ (f :: files).take (n + 1), ¬ g.isYoung l now = true := by
      intro n hfiles
      rw [List.take_succ_cons]
      exact List.forall_mem_cons.2 ⟨hold, hfiles⟩
    split
    · rename_i hkeep
      obtain ⟨n, hn, hfiles, hneeded, hend⟩ := ih s
      refine ⟨n + 1, ?_, hfront n hfiles, ?_, ?_⟩
      all_goals rw [List.take_succ_cons, exposed_cons_of_eq hkeep]
      · exact hn
      · exact hneeded
      · exact hend
    · rename_i hkeep
      obtain ⟨n, hn, hfiles, hneeded, hend⟩ := ih (s.remove f.size)
      refine ⟨n + 1, ?_, hfront n hfiles, ?_, ?_⟩
      all_goals rw [List.take_succ_cons, exposed_cons_of_ne hkeep]
      · rw [hn]
        rfl
      · intro m hm
        cases m with
        | zero => exact hbeyond
        | succ m => exact hneeded m (Nat.lt_of_succ_lt_succ hm)
      · exact hend

/-- What may go and is not in the front comes after it. -/
theorem mem_drop_of_stays {n : Nat} {f : CachedFile} (hf : f ∈ files) (hkeep : keep? ≠ some f.name)
    (hstays : f ∉ exposed keep? (files.take n)) : f ∈ files.drop n := by
  rw [← List.take_append_drop n files] at hf
  refine (List.mem_append.1 hf).resolve_left fun hfront => hstays ?_
  exact List.mem_filter.2 ⟨hfront, decide_eq_true hkeep⟩

theorem byAge_perm (files : List CachedFile) : (byAge files).Perm files := List.mergeSort_perm _ _

theorem byAge_sorted (files : List CachedFile) :
    (byAge files).Pairwise fun f g => f.modified ≤ g.modified := by
  have hsorted : (byAge files).Pairwise fun f g => decide (f.modified ≤ g.modified) = true :=
    List.pairwise_mergeSort (fun f g h => by simpa using Int.le_trans)
      (fun f g => by simpa using Int.le_total _ _) files
  simpa only [decide_eq_true_iff] using hsorted

/-- An eviction takes away files that are not to be kept, that are not young, and that were used no
later than any that stays, but for the one to keep. -/
theorem mem_evict (h : name ∈ (evict l now keep? files).2) :
    keep? ≠ some name ∧ ∃ f ∈ files, f.name = name ∧ ¬ f.isYoung l now = true ∧
      ∀ g ∈ files, g.name ∉ (evict l now keep? files).2 → keep? ≠ some g.name →
        f.modified ≤ g.modified := by
  unfold evict at h ⊢
  obtain ⟨n, hn, hold, -⟩ := evictFrom_eq l now keep? (byAge files) (.initial files)
  rw [hn] at h ⊢
  obtain ⟨f, hf, rfl⟩ := List.mem_map.1 h
  obtain ⟨hfront, hkeep⟩ := List.mem_filter.1 hf
  have hmem := (byAge_perm files).mem_iff.1 (List.mem_of_mem_take hfront)
  refine ⟨of_decide_eq_true hkeep, f, hmem, rfl, hold f hfront, fun g hg hstays hother => ?_⟩
  have hback : g ∈ (byAge files).drop n :=
    mem_drop_of_stays ((byAge_perm files).mem_iff.2 hg) hother fun h =>
      hstays (List.mem_map_of_mem h)
  have hsorted := byAge_sorted files
  rw [← List.take_append_drop n (byAge files)] at hsorted
  exact (List.pairwise_append.1 hsorted).2.2 f hfront g hback

end

/-! ## Directories -/

theorem CacheDir.getElem?_eraseAll (d : CacheDir) (names : List String) (name : String) :
    (d.eraseAll names).entries[name]? = if name ∈ names then none else d.entries[name]? := by
  have hfold : ∀ (names : List String) (m : ExtTreeMap String CacheNode),
      (names.foldl (fun m n => m.erase n) m)[name]? = if name ∈ names then none else m[name]? := by
    intro names
    induction names with
    | nil => exact fun m => (if_neg List.not_mem_nil).symm
    | cons n names ih =>
      intro m
      rw [List.foldl_cons, ih]
      by_cases hn : n = name
      · rw [← hn, ExtTreeMap.getElem?_erase_self, if_pos List.mem_cons_self, ite_self]
      · rw [getElem?_erase_of_ne hn]
        simp [Ne.symm hn]
  exact hfold names d.entries

/-- Eviction sees the entries that are files, with their sizes and times. -/
theorem CacheDir.mem_files {d : CacheDir} {f : CachedFile} :
    f ∈ d.files ↔ ∃ content writable,
      d.entries[f.name]? = some (.file content f.modified writable) ∧ f.size = content.length := by
  unfold CacheDir.files
  rw [List.mem_filterMap]
  constructor
  · rintro ⟨⟨name, node⟩, hmem, hfile⟩
    have hentry := ExtTreeMap.mem_toList_iff_getElem?_eq_some.1 hmem
    cases node with
    | directory => exact absurd hfile nofun
    | file content t writable =>
      obtain rfl := Option.some.inj hfile
      exact ⟨content, writable, hentry, rfl⟩
  · rintro ⟨content, writable, hentry, hsize⟩
    refine ⟨(f.name, .file content f.modified writable),
      ExtTreeMap.mem_toList_iff_getElem?_eq_some.2 hentry, ?_⟩
    show some (CachedFile.mk f.name content.length f.modified) = some f
    rw [← hsize]

theorem CacheDir.filesAt_perm (d : CacheDir) (now : Instant) : (d.filesAt now).Perm d.files :=
  List.mergeSort_perm _ _

theorem CacheDir.mem_filesAt {d : CacheDir} {now : Instant} {f : CachedFile} :
    f ∈ d.filesAt now ↔ f ∈ d.files := (d.filesAt_perm now).mem_iff

end BlobVault
