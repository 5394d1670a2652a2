import BlobVault.Proofs.Caching.Touches

/-!
# Least recently used first

The only trace that a use leaves is the time of an entry. Over a run in which the clock does not go
back, that time tells the last step that touched the entry, so that what an eviction finds oldest is
what was not touched for longest.

1. `Store.trace_getElem?`, `Store.OnTime`: runs by the number of a step, and their times.
2. `FileCache.LastTouch`, `FileCache.Dated`: the last step that touched an entry, and what its time
   has to do with that step.
3. `FileCache.dated_of_entry`: the time of every entry is that of the step that touched it last.
4. `FileCache.least_recently_used`: whom evictions take.
-/

namespace BlobVault

open Std (ExtTreeMap)
open FileCache (entries_eq entryName)

/-! ## Runs and their times -/

namespace Store

variable {store : Store} {w : World} {steps : List Step} {i : Nat} {t : Transition}

/-- The world after some steps of a run. -/
def moment (store : Store) (w : World) (steps : List Step) (i : Nat) : World :=
  store.run w (steps.take i)

/-- No step starts before the time when the one before it ended. -/
def OnTime (store : Store) : World → List Step → Prop
  | _, [] => True
  | w, s :: steps => w.now ≤ s.time ∧ store.OnTime (store.step w s).after steps

theorem trace_getElem? (store : Store) (w : World) (steps : List Step) (i : Nat) :
    (store.trace w steps)[i]? = steps[i]?.map fun s => store.step (store.moment w steps i) s := by
  induction steps generalizing w i with
  | nil => rfl
  | cons s steps ih =>
    cases i with
    | zero => rfl
    | succ i => exact ih _ i

theorem moment_of_no_step (h : (store.trace w steps)[i]? = none) :
    store.moment w steps (i + 1) = store.moment w steps i := by
  rw [trace_getElem?, Option.map_eq_none_iff, List.getElem?_eq_none_iff] at h
  unfold moment
  rw [List.take_of_length_le h, List.take_of_length_le (Nat.le_succ_of_le h)]

variable (h : (store.trace w steps)[i]? = some t)

include h

theorem exists_step :
    ∃ s, steps[i]? = some s ∧ t = store.step (store.moment w steps i) s := by
  rw [trace_getElem?] at h
  obtain ⟨s, hs, hstep⟩ := Option.map_eq_some_iff.1 h
  exact ⟨s, hs, hstep.symm⟩

theorem moment_succ : store.moment w steps (i + 1) = t.after := by
  obtain ⟨s, hs, rfl⟩ := exists_step h
  exact foldl_take_succ _ w hs

/-- A step begins with what the run has come to, at another time. -/
theorem entries_before (c : FileCache) :
    c.entries t.before = c.entries (store.moment w steps i) := by
  obtain ⟨s, -, rfl⟩ := exists_step h
  rw [step_before]
  rfl

theorem OnTime.le (htime : store.OnTime w steps) : (store.moment w steps i).now ≤ t.before.now := by
  obtain ⟨s, hs, rfl⟩ := exists_step h
  rw [step_before]
  clear h
  induction steps generalizing w i with
  | nil => exact absurd hs nofun
  | cons s' steps ih =>
    cases i with
    | zero =>
      obtain rfl := Option.some.inj hs
      exact htime.1
    | succ i => exact ih htime.2 hs

end Store

/-! ## The last touch -/

namespace FileCache

/-- The step touches the entry of the key. -/
def Touches (c : FileCache) (inner : Store) (t : Transition) (key : String) : Prop :=
  ∃ touch, c.touchOf inner t.before t.operation = some touch ∧ touch.key = key

/-- The step makes an entry for the key. -/
def Commits (c : FileCache) (inner : Store) (t : Transition) (key : String) : Prop :=
  c.touchOf inner t.before t.operation = some (.commit key)

/-- The step takes the entry of the key away, and not because it deletes the key. -/
structure EvictedBy (c : FileCache) (t : Transition) (key : String) : Prop where
  before : (c.entry? t.before key).isSome
  after : c.entry? t.after key = none
  drops : ¬ t.operation.drops (entryName key)

/-- Of the steps before one of them, the last that touches the entry of a key. -/
structure LastTouch (c : FileCache) (inner : Store) (ts : List Transition) (key : String)
    (i j : Nat) : Prop where
  lt : j < i
  touches : ∃ t, ts[j]? = some t ∧ c.Touches inner t key
  later : ∀ k, j < k → k < i → ∀ t, ts[k]? = some t → ¬ c.Touches inner t key

variable {c : FileCache} {inner : Store} {ts : List Transition} {key : String} {i j k : Nat}
  {w : World} {t : Transition}

/-- There is no more than one last touch. -/
theorem LastTouch.unique (h : c.LastTouch inner ts key i j) (h' : c.LastTouch inner ts key i k) :
    j = k := by
  obtain ⟨t, ht, htouches⟩ := h.touches
  obtain ⟨t', ht', htouches'⟩ := h'.touches
  rcases Nat.lt_trichotomy j k with hlt | heq | hlt
  · exact absurd htouches' (h.later k hlt h'.lt t' ht')
  · exact heq
  · exact absurd htouches (h'.later j hlt h.lt t ht)

/-- Before a step, an entry has the time of its last touch, or it has not been touched, and the time
that it had in the beginning. -/
def Dated (c : FileCache) (inner : Store) (w : World) (ts : List Transition) (i : Nat)
    (key : String) (used : Instant) : Prop :=
  (∃ j t, c.LastTouch inner ts key i j ∧ ts[j]? = some t ∧ t.before.now ≤ used ∧
      used < t.after.now) ∨
    ((∀ j < i, ∀ t, ts[j]? = some t → ¬ c.Touches inner t key) ∧
      ∃ content writable, (c.entries w)[entryName key]? = some (.file content used writable))

/-- A step that does not touch the entry is not its last touch. -/
theorem Dated.succ {used : Instant} (h : c.Dated inner w ts i key used)
    (hfree : ∀ t, ts[i]? = some t → ¬ c.Touches inner t key) :
    c.Dated inner w ts (i + 1) key used := by
  have hnext : ∀ {k}, k < i + 1 → (k < i → ∀ t, ts[k]? = some t → ¬ c.Touches inner t key) →
      ∀ t, ts[k]? = some t → ¬ c.Touches inner t key := by
    intro k hk hbefore
    rcases Nat.lt_succ_iff_lt_or_eq.1 hk with hlt | rfl
    · exact hbefore hlt
    · exact hfree
  rcases h with ⟨j, t, hlast, ht, hstart, hend⟩ | ⟨hnone, hinitial⟩
  · refine .inl ⟨j, t, ⟨Nat.lt_succ_of_lt hlast.lt, hlast.touches, fun k hjk hk => ?_⟩, ht, hstart,
      hend⟩
    exact hnext hk (hlast.later k hjk)
  · exact .inr ⟨fun k hk => hnext hk (hnone k), hinitial⟩

/-- The time of an entry that was touched lies in the step that touched it last. -/
theorem Dated.of_lastTouch {used : Instant} (h : c.Dated inner w ts i key used)
    (hlast : c.LastTouch inner ts key i j) (ht : ts[j]? = some t) :
    t.before.now ≤ used ∧ used < t.after.now := by
  rcases h with ⟨k, u, hlast', hu, hstart, hend⟩ | ⟨hnone, -⟩
  · obtain rfl := hlast.unique hlast'
    obtain rfl := Option.some.inj (ht.symm.trans hu)
    exact ⟨hstart, hend⟩
  · obtain ⟨u, hu, htouches⟩ := hlast.touches
    exact absurd htouches (hnone j hlast.lt u hu)

/-- An entry whose time is not before the start of a step was touched in that step or a later
one. -/
theorem Dated.exists_lastTouch {start used : Instant} (h : c.Dated inner w ts i key used)
    (hstart : start ≤ used) (hearlier : ∀ k < j, ∀ t, ts[k]? = some t → t.after.now ≤ start)
    (hold : ∀ content writable,
      (c.entries w)[entryName key]? = some (.file content used writable) → used < start) :
    ∃ k, j ≤ k ∧ c.LastTouch inner ts key i k := by
  rcases h with ⟨k, t, hlast, ht, -, hend⟩ | ⟨-, content, writable, hinitial⟩
  · refine ⟨k, Nat.le_of_not_lt fun hk => ?_, hlast⟩
    exact absurd (hend.trans_le ((hearlier k hk t ht).trans hstart)) (lt_irrefl _)
  · exact absurd (hold content writable hinitial) hstart.not_gt

theorem exists_of_entry? (h : (c.entry? w key).isSome) :
    ∃ content used writable,
      (c.entries w)[entryName key]? = some (.file content used writable) := by
  unfold entry? at h
  split at h
  · exact ⟨_, _, _, ‹_›⟩
  · exact absurd h nofun

/-- What can be told of an entry that a step evicts: its time, when it was evicted, and that what is
left and was not made for it stays as it was, and has no earlier time. -/
theorem EvictedBy.exists_entry (h : c.EvictedBy t key)
    (huses : c.UsedBy (c.touchOf inner t.before t.operation) t.operation.drops t.before t.after) :
    ∃ content used writable moment,
      (c.entries t.before)[entryName key]? = some (.file content used writable) ∧
      t.before.now ≤ moment ∧ moment ≤ t.after.now ∧
      c.limits.minAge ≤ max 0 (moment - used) ∧
      ∀ other, (c.entry? t.after other).isSome → ¬ c.Commits inner t other →
        ∃ content' used' writable', used ≤ used' ∧
          (c.entries t.before)[entryName other]? = some (.file content' used' writable') := by
  obtain ⟨content, used, writable, hentry⟩ := exists_of_entry? h.before
  have hgone : (c.entries t.after)[entryName key]? = none := by
    cases hnode : (c.entries t.after)[entryName key]? with
    | none => rfl
    | some node =>
      have hleft : ∃ content used writable, node = .file content used writable := by
        by_cases htouches : c.Touches inner t key
        · obtain ⟨touch, htouch, rfl⟩ := htouches
          obtain ⟨content', used', writable', -, -, hmarked⟩ := huses.touched touch htouch
          exact ⟨content', used', writable', Option.some.inj (hnode.symm.trans hmarked)⟩
        · have hsame := huses.others _ _ (fun touch htouch hname =>
            htouches ⟨touch, htouch, entryName_inj hname⟩) hnode
          exact ⟨content, used, writable, Option.some.inj (hsame.symm.trans hentry)⟩
      obtain ⟨content', used', writable', rfl⟩ := hleft
      exact absurd ((entry?_eq_some hnode).symm.trans h.after) nofun
  obtain ⟨_, _, _, moment, hfile, hstart, hend, hage, hhit, holdest⟩ :=
    huses.evicted _ _ hentry hgone h.drops
  obtain ⟨rfl, rfl, rfl⟩ := CacheNode.file.inj hfile
  refine ⟨content, used, writable, moment, hentry, hstart, hend, hage, fun other hother hfree => ?_⟩
  obtain ⟨content', used', writable', hleft⟩ := exists_of_entry? hother
  -- a step that evicts touches no entry but the one that it makes
  have huntouched : ∀ touch, c.touchOf inner t.before t.operation = some touch →
      entryName touch.key ≠ entryName other := by
    intro touch htouch hname
    obtain rfl := entryName_inj hname
    cases touch with
    | hit k => exact hhit k htouch
    | commit k => exact hfree htouch
  exact ⟨content', used', writable', holdest _ content' used' writable' hleft huntouched,
    huses.others _ _ huntouched hleft⟩

/-! ## Runs -/

section

variable (name : String) (hinner : inner.InView (c.dir ≠ ·)) {steps : List Step}
  (hsteps : ∀ s ∈ steps, s.operation.IsDirect)

include hinner hsteps

/-- What a step of a run does to the entries. -/
theorem usedBy_of_step (ht : ((Store.caching name c inner).trace w steps)[i]? = some t) :
    c.UsedBy (c.touchOf inner t.before t.operation) t.operation.drops t.before t.after := by
  obtain ⟨s, hs, rfl⟩ := Store.exists_step ht
  rw [Store.step_before, Store.step_operation]
  rcases Store.step_spec (perform_usedBy name hinner (hsteps s (List.mem_of_getElem? hs)) _) with
    ⟨_, -, h⟩ | ⟨_, -, h⟩
  · exact h
  · exact h

/-- **Times.** Before every step of a run, the time of an entry tells its last touch. -/
theorem dated_of_entry (i : Nat) {content : Bytes} {used : Instant} {writable : Bool}
    (hentry : (c.entries ((Store.caching name c inner).moment w steps i))[entryName key]? =
      some (.file content used writable)) :
    c.Dated inner w ((Store.caching name c inner).trace w steps) i key used := by
  induction i generalizing content used writable with
  | zero => exact .inr ⟨fun j hj => absurd hj (Nat.not_lt_zero j), content, writable, hentry⟩
  | succ i ih =>
    cases ht : ((Store.caching name c inner).trace w steps)[i]? with
    | none =>
      rw [Store.moment_of_no_step ht] at hentry
      exact (ih hentry).succ fun t ht' => absurd (ht.symm.trans ht') nofun
    | some t =>
      have huses := usedBy_of_step name hinner hsteps ht
      rw [Store.moment_succ ht] at hentry
      by_cases htouches : c.Touches inner t key
      · obtain ⟨touch, htouch, rfl⟩ := htouches
        obtain ⟨content', used', writable', hstart, hend, hmarked⟩ := huses.touched touch htouch
        rw [hentry] at hmarked
        obtain ⟨rfl, rfl, rfl⟩ := CacheNode.file.inj (Option.some.inj hmarked)
        refine .inl ⟨i, t, ⟨Nat.lt_succ_self i, ⟨t, ht, touch, htouch, rfl⟩, ?_⟩, ht, hstart, hend⟩
        exact fun k hik hk => absurd hik (Nat.not_lt_of_le (Nat.le_of_lt_succ hk))
      · have hold := huses.others _ _ (fun touch htouch hname =>
          htouches ⟨touch, htouch, entryName_inj hname⟩) hentry
        rw [Store.entries_before ht] at hold
        refine (ih hold).succ fun t' ht' => ?_
        obtain rfl := Option.some.inj (ht.symm.trans ht')
        exact htouches

variable (htime : (Store.caching name c inner).OnTime w steps)

include htime

/-- The clock does not go back in such a run. -/
theorem now_moment_mono {i j : Nat} (h : i ≤ j) :
    ((Store.caching name c inner).moment w steps i).now ≤
      ((Store.caching name c inner).moment w steps j).now := by
  refine monotone_nat_of_le_succ (f := fun i =>
    ((Store.caching name c inner).moment w steps i).now) (fun i => ?_) h
  cases ht : ((Store.caching name c inner).trace w steps)[i]? with
  | none => rw [Store.moment_of_no_step ht]
  | some t =>
    rw [Store.moment_succ ht]
    exact (Store.OnTime.le ht htime).trans (usedBy_of_step name hinner hsteps ht).now

/-- A step has ended when a later one begins. -/
theorem after_le_before {i j : Nat} {u : Transition} (hij : i < j)
    (ht : ((Store.caching name c inner).trace w steps)[i]? = some t)
    (hu : ((Store.caching name c inner).trace w steps)[j]? = some u) :
    t.after.now ≤ u.before.now := by
  rw [← Store.moment_succ ht]
  exact (now_moment_mono name hinner hsteps htime hij).trans (Store.OnTime.le hu htime)

/-- **Least recently used first.** Take a cache in front of a store that works in other directories,
over a run in which the clock does not go back, and entries from before the run, if there are any,
of an earlier time. Then for every step of the run:

1. If it evicts an entry, the entry was touched in the run, or was there in the beginning. If it was
   touched, the last time was the minimum age or more before it is evicted, and every entry that is
   left, but for the one that the step makes, was touched in that step or a later one.
2. An entry that the step touches is there when it ends.
3. An entry that the step does not touch is what it was, if it is still there.
4. If the step is about a key with a range, it touches no entry, and all stay as they are. -/
theorem least_recently_used
    (hold : ∀ key content used writable,
      (c.entries w)[entryName key]? = some (.file content used writable) → used < w.now)
    (ht : ((Store.caching name c inner).trace w steps)[i]? = some t) :
    let ts := (Store.caching name c inner).trace w steps
    (∀ key, c.EvictedBy t key →
        (c.entry? w key = none → ∃ j, c.LastTouch inner ts key i j) ∧
        ∀ j u, c.LastTouch inner ts key i j → ts[j]? = some u →
          (∃ used moment, u.before.now ≤ used ∧ used < u.after.now ∧ t.before.now ≤ moment ∧
            moment ≤ t.after.now ∧ used + c.limits.minAge ≤ moment) ∧
          ∀ other, (c.entry? t.after other).isSome → ¬ c.Commits inner t other →
            ∃ k, j ≤ k ∧ c.LastTouch inner ts other i k) ∧
      (∀ key, c.Touches inner t key → (c.entry? t.after key).isSome) ∧
      (∀ key, ¬ c.Touches inner t key → ∀ node, (c.entries t.after)[entryName key]? = some node →
        (c.entries t.before)[entryName key]? = some node) ∧
      (t.operation.IsRanged → c.entries t.after = c.entries t.before ∧
        ∀ key, ¬ c.Touches inner t key) := by
  have huses := usedBy_of_step name hinner hsteps ht
  have hbefore := Store.entries_before ht c
  refine ⟨fun key hevicted => ?_, fun key htouches => ?_, fun key htouches node hnode => ?_,
    fun hranged => ?_⟩
  · obtain ⟨content, used, writable, moment, hentry, hstart, hend, hage, hothers⟩ :=
      hevicted.exists_entry huses
    rw [hbefore] at hentry hothers
    have hdated := dated_of_entry name hinner hsteps i hentry
    refine ⟨fun hnew => ?_, fun j u hlast hu => ?_⟩
    · rcases hdated with ⟨j, -, hlast, -⟩ | ⟨-, content', writable', hinitial⟩
      · exact ⟨j, hlast⟩
      · exact absurd ((entry?_eq_some hinitial).symm.trans hnew) nofun
    obtain ⟨huused, hused⟩ := hdated.of_lastTouch hlast hu
    have hlater := after_le_before name hinner hsteps htime hlast.lt hu ht
    have hmoment : used ≤ moment := hused.le.trans (hlater.trans hstart)
    refine ⟨⟨used, moment, huused, hused, hstart, hend, ?_⟩, fun other hother hfree => ?_⟩
    · rw [max_eq_right (sub_nonneg.2 hmoment)] at hage
      exact le_sub_iff_add_le'.1 hage
    obtain ⟨content', used', writable', hle, hentry'⟩ := hothers other hother hfree
    have hbegan : w.now ≤ u.before.now :=
      (now_moment_mono name hinner hsteps htime (Nat.zero_le j)).trans (Store.OnTime.le hu htime)
    exact (dated_of_entry name hinner hsteps i hentry').exists_lastTouch (huused.trans hle)
      (fun k hk t' ht' => after_le_before name hinner hsteps htime hk ht' hu)
      fun content'' writable'' hinitial =>
        (hold other content'' used' writable'' hinitial).trans_le hbegan
  · obtain ⟨touch, htouch, rfl⟩ := htouches
    obtain ⟨content, used, writable, -, -, hentry⟩ := huses.touched touch htouch
    rw [entry?_eq_some hentry]
    rfl
  · exact huses.others _ _ (fun touch htouch hname =>
      htouches ⟨touch, htouch, entryName_inj hname⟩) hnode
  · obtain ⟨s, hs, rfl⟩ := Store.exists_step ht
    rw [Store.step_operation] at hranged
    refine ⟨?_, fun key htouches => ?_⟩
    · rw [Store.step_before]
      have hdirect := hsteps s (List.mem_of_getElem? hs)
      rcases Store.step_spec (perform_elsewhere name hinner hdirect hranged _) with
        ⟨_, -, h⟩ | ⟨_, -, h⟩
      · exact h.entries
      · exact h.entries
    · obtain ⟨touch, htouch, -⟩ := htouches
      rw [Store.step_operation, touchOf_of_isRanged hranged] at htouch
      exact absurd htouch nofun

end

/-- A cache with room for two entries, of a second at least: the one that was asked for again is
spared, though it was made first. -/
theorem spared_when_used_again :
    let m : MemoryStore := { name := "vault", memory := "vault", tempDir := .scratch "temps" }
    let c : FileCache := ⟨"cache", ⟨100, 2, seconds 1⟩⟩
    let s : Store := .caching "cached" c (.memory m)
    let w : World := {
      memories := ExtTreeMap.insert ∅ "vault"
        (((ExtTreeMap.insert ∅ "a" [97]).insert "b" [98]).insert "c" [99])
      caches := ExtTreeMap.insert ∅ "cache" {} }
    let steps : List Step := [⟨0, .stream "a"⟩, ⟨seconds 1, .stream "b"⟩,
      ⟨seconds 2, .contains "a"⟩, ⟨seconds 3, .stream "c"⟩]
    let t := s.step (s.moment w steps 3) ⟨seconds 3, .stream "c"⟩
    (Store.memory m).InView (c.dir ≠ ·) ∧ (∀ s ∈ steps, s.operation.IsDirect) ∧
      s.OnTime w steps ∧
      (∀ key content used writable,
        (c.entries w)[entryName key]? = some (.file content used writable) → used < w.now) ∧
      (s.trace w steps)[3]? = some t ∧ c.EvictedBy t "b" ∧ (c.entry? t.after "a").isSome ∧
      ∃ j, c.LastTouch (.memory m) (s.trace w steps) "b" 3 j ∧
        ∃ k, j ≤ k ∧ c.LastTouch (.memory m) (s.trace w steps) "a" 3 k := by
  intro m c s w steps t
  have hsteps : ∀ s ∈ steps, s.operation.IsDirect := by
    refine List.forall_mem_cons.2 ⟨trivial, List.forall_mem_cons.2 ⟨trivial, ?_⟩⟩
    exact List.forall_mem_cons.2 ⟨trivial, List.forall_mem_singleton.2 trivial⟩
  -- all that is asked of this run, evaluated at once
  have hrun : ((s.moment w steps 1).now = 1 ∧ (s.moment w steps 2).now = seconds 1 + 1 ∧
        (s.moment w steps 3).now = seconds 2 + 1) ∧
      ((c.entry? t.before "b").isSome ∧ c.entry? t.after "b" = none) ∧
      (c.entry? t.after "a").isSome ∧
      c.touchOf (.memory m) t.before t.operation = some (.commit "c") := by
    subst m c s w steps t
    cbv
  obtain ⟨⟨hfirst, hsecond, hthird⟩, ⟨hbefore, hafter⟩, hspared, htouch⟩ := hrun
  have htime : s.OnTime w steps := by
    refine ⟨le_refl _, hfirst.le.trans (by decide), ?_, ?_, trivial⟩
    · exact hsecond.le.trans (by decide)
    · exact hthird.le.trans (by decide)
  have hdir : w.caches[c.dir]? = some {} := ExtTreeMap.getElem?_insert_self
  have hold : ∀ key content used writable,
      (c.entries w)[entryName key]? = some (.file content used writable) → used < w.now := by
    intro key content used writable hentry
    rw [entries_eq hdir] at hentry
    exact absurd (hentry.symm.trans ExtTreeMap.getElem?_empty) (Option.some_ne_none _)
  have hevicted : c.EvictedBy t "b" := by
    refine ⟨hbefore, hafter, ?_⟩
    rw [Store.step_operation]
    exact id
  have hcommits : ¬ c.Commits (.memory m) t "a" := fun h =>
    absurd (htouch.symm.trans h) (by decide)
  have hinner : (Store.memory m).InView (c.dir ≠ ·) := trivial
  obtain ⟨hlaw, -⟩ := least_recently_used "cached" hinner hsteps htime hold (i := 3) (t := t) rfl
  obtain ⟨htouched, hlast⟩ := hlaw "b" hevicted
  obtain ⟨j, hj⟩ := htouched (entry?_of_new hdir "b")
  obtain ⟨u, hu, -⟩ := hj.touches
  exact ⟨hinner, hsteps, htime, hold, rfl, hevicted, hspared, j, hj,
    (hlast j u hj hu).2 "a" hspared hcommits⟩

end FileCache

end BlobVault
