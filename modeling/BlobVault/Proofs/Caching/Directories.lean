import BlobVault.Proofs.Caching.Run
import BlobVault.Proofs.LockstepStore

/-!
# Directories that stores work in

Whatever is done through a store, and whichever requests fail, a directory for temporary files that
was there stays there, and the directory of a cache stays fit for use. For no change that a store
makes takes that away (`Lasts`), and every operation is made of such changes: it runs alike in a
world and that world itself.

1. `Lockstep.perform`: operations in related worlds.
2. `Lasts.run`: what no single change takes away, no run takes away.
3. `lasts_temps`, `FileCache.lasts_intact`: the directories.
-/

namespace BlobVault

/-! ## Everything in view -/

theorem TempDir.inView_true (t : TempDir) : t.InView fun _ => True := by
  cases t <;> trivial

theorem LocalPath.inView_true (path : LocalPath) : path.InView fun _ => True := by
  cases path with
  | temp t _ => exact t.inView_true
  | _ => trivial

theorem Store.inView_true (store : Store) : store.InView fun _ => True := by
  induction store with
  | caching _ _ _ ih => exact ⟨trivial, ih⟩
  | _ => trivial

namespace Lockstep

variable {A : World → World → Prop}

/-- With every directory in view, every operation runs alike. -/
theorem perform (hA : Related (fun _ => True) A) (store : Store) (operation : Operation) :
    Lockstep A (fun _ _ => True) (store.perform operation) := by
  have hR := admits_true fun _ => True
  have hstore := store.inView_true
  have htemp : ∀ p : PlainStore, store.Wraps p → p.tempDir.InView fun _ => True :=
    fun p _ => p.tempDir.inView_true
  cases operation with
  | write request =>
    exact (write hA store hstore htemp fun path _ => path.inView_true).bind hR fun _ => pure hR _
  | read key dest =>
    exact (readInto hA hR store hstore key dest.inView_true).bind hR fun _ => pure hR _
  | stream key =>
    refine bind_of hR (openStream hA hR store hstore key).1 (openStream hA hR store hstore key).2
      fun stream? hstream => ?_
    cases stream? with
    | none => exact pure hR _
    | some stream => exact (drain hA hR (hstream stream rfl)).bind hR fun _ => pure hR _
  | file key =>
    refine (localFile hA hR store hstore key).1.bind hR fun lookup => ?_
    cases lookup with
    | found path => exact (fileContent hA hR path.inView_true).bind hR fun _ => pure hR _
    | missing => exact pure hR _
    | unknown => exact pure hR _
  | contains key => exact (contains hA hR store hstore key).bind hR fun _ => pure hR _
  | delete key =>
    exact (delete hA hR store hstore key fun _ _ _ => Ensures.any _ _).bind hR fun _ => pure hR _
  | copy key source? sourceKey move =>
    exact (copy hA store htemp (source?.getD store).inView_true key sourceKey move).bind hR
      fun _ => pure hR _
  | clear => exact (clear hA store hstore).bind hR fun _ => pure hR _
  | evict =>
    cases store with
    | caching _ _ _ => exact (evictExcept hA hR trivial none).bind hR fun _ => pure hR _
    | memory _ => exact pure hR _
    | remote _ => exact pure hR _

end Lockstep

/-! ## What no operation takes away -/

/-- A property of worlds that no single change by a store takes away. -/
structure Lasts (P : World → Prop) : Prop where
  setContainer : ∀ {w : World}, P w → ∀ name c, P (w.setContainer name c)
  setMemory : ∀ {w : World}, P w → ∀ name blobs, P (w.setMemory name blobs)
  setCache : ∀ {w : World}, P w → ∀ dir d e, w.caches[dir]? = some d → d.Keeps e →
    P (w.setCache dir e)
  setScratch : ∀ {w : World}, P w → ∀ name files,
    P { w with scratch := w.scratch.insert name files }
  setFiles : ∀ {w : World}, P w → ∀ files, P { w with files }
  setNow : ∀ {w : World}, P w → ∀ now, P { w with now }

namespace Lasts

variable {P : World → Prop} {w : World}

/-- Then the worlds with the property are related to themselves. -/
theorem related (h : Lasts P) : Related (fun _ => True) fun w v => v = w ∧ P w where
  container hw _ := by rw [hw.1]
  memories hw := by rw [hw.1]
  caches hw _ _ := by rw [hw.1]
  scratch hw := by rw [hw.1]
  files hw := by rw [hw.1]
  now hw := by rw [hw.1]
  setContainer hw name c _ := ⟨by rw [hw.1], h.setContainer hw.2 name c⟩
  setMemory hw name blobs := ⟨by rw [hw.1], h.setMemory hw.2 name blobs⟩
  setCache hw dir d e _ hd hkeeps := ⟨by rw [hw.1], h.setCache hw.2 dir d e hd hkeeps⟩
  setScratch hw name files := ⟨by rw [hw.1], h.setScratch hw.2 name files⟩
  setFiles hw files := ⟨by rw [hw.1], h.setFiles hw.2 files⟩
  setNow hw now := ⟨by rw [hw.1], h.setNow hw.2 now⟩

/-- No operation takes the property away, whatever requests fail. -/
theorem step (h : Lasts P) (hw : P w) (store : Store) (s : Step) : P (store.step w s).after := by
  unfold Store.step
  dsimp only
  rcases Lockstep.perform h.related store s.operation _ _ ⟨rfl, h.setNow hw s.time⟩ with
    ⟨a, x, _, hx, -, hafter, -⟩ | ⟨e, x, _, hx, -, hafter, -⟩
  · rw [hx]
    exact hafter.2
  · rw [hx]
    exact hafter.2

/-- **What lasts.** No run takes the property away. -/
theorem run (h : Lasts P) (hw : P w) (store : Store) (steps : List Step) :
    P (store.run w steps) := by
  unfold Store.run
  induction steps generalizing w with
  | nil => exact hw
  | cons s steps ih => exact ih (h.step hw store s)

end Lasts

/-! ## Directories -/

theorem CacheDir.Keeps.isFile {d e : CacheDir} (h : d.Keeps e)
    (hd : ∀ (name : String) (node : CacheNode), d.entries[name]? = some node → node.IsFile)
    (name : String) (node : CacheNode) (hnode : e.entries[name]? = some node) : node.IsFile := by
  rcases h.entries name node hnode with hold | hnew
  · exact hd name node hold
  · exact hnew

/-- A directory for temporary files stays in place. -/
theorem lasts_temps (t : TempDir) : Lasts fun w => ∃ files, w.temps? t = some files where
  setContainer hw _ _ := hw
  setMemory hw _ _ := hw
  setCache := by
    rintro w ⟨files, hfiles⟩ dir d e hd hkeeps
    cases t with
    | scratch name => exact ⟨files, hfiles⟩
    | ofCache name =>
      by_cases hdir : dir = name
      · subst hdir
        have htemps : d.temps? = some files := by
          obtain ⟨d', hd', htemps⟩ := Option.bind_eq_some_iff.1 hfiles
          rw [hd] at hd'
          rwa [Option.some.inj hd']
        obtain ⟨kept, hkept⟩ := Option.isSome_iff_exists.1 (hkeeps.temps (by rw [htemps]; rfl))
        exact ⟨kept, Option.bind_eq_some_iff.2 ⟨e, World.caches_setCache_self _ _ _, hkept⟩⟩
      · refine ⟨files, ?_⟩
        show ((w.setCache dir e).caches[name]?).bind _ = _
        rw [World.caches_setCache_of_ne _ hdir]
        exact hfiles
  setScratch := by
    rintro w ⟨files, hfiles⟩ name new
    cases t with
    | ofCache _ => exact ⟨files, hfiles⟩
    | scratch other =>
      show ∃ files, (w.scratch.insert name new)[other]? = some files
      rw [Std.ExtTreeMap.getElem?_insert]
      split
      · exact ⟨new, rfl⟩
      · exact ⟨files, hfiles⟩
  setFiles hw _ := hw
  setNow hw _ := hw

namespace FileCache

variable {c : FileCache} {w v : World}

theorem Intact.of_caches (h : c.Intact w) (hv : v.caches = w.caches) : c.Intact v := by
  refine ⟨?_, ?_⟩
  · show ∃ files, (v.caches[c.dir]?).bind _ = _
    rw [hv]
    exact h.temps
  · unfold FileCache.entries
    rw [hv]
    exact h.isFile

/-- The directory of a cache stays intact. -/
theorem lasts_intact (c : FileCache) : Lasts c.Intact where
  setContainer hw _ _ := hw.of_caches rfl
  setMemory hw _ _ := hw.of_caches rfl
  setCache := by
    intro w hw dir d e hd hkeeps
    refine ⟨(lasts_temps c.tempDir).setCache hw.temps dir d e hd hkeeps, ?_⟩
    by_cases hdir : dir = c.dir
    · subst hdir
      have hfile := hw.isFile
      rw [entries_eq hd] at hfile
      rw [entries_eq (World.caches_setCache_self _ _ _)]
      exact hkeeps.isFile hfile
    · unfold FileCache.entries
      rw [World.caches_setCache_of_ne _ hdir]
      exact hw.isFile
  setScratch hw _ _ := hw.of_caches rfl
  setFiles hw _ := hw.of_caches rfl
  setNow hw _ := hw.of_caches rfl

end FileCache

end BlobVault
