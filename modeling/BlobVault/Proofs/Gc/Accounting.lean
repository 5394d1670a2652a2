import BlobVault.Proofs.Gc.Tally

/-!
# The books of a runner

A runner keeps a report on each command under the id of the command, from the moment it is accepted
until it has ended. Ids are drawn at random; the books are kept for an id that is drawn once. The final report says how the command ended and what it counted.

1. `GarbageCollector.execute_accounts`: the final report, wherever the command ends.
2. `GcRunner.Booked`, `GcRunner.Booked.apply`: the entries of a runner, whatever happens to it.
3. `GcRunner.accounts_of_command`: the life of one command among all others.
-/

namespace BlobVault

open Std (ExtTreeMap)

/-! ## The final report -/

section Execution

variable {σ : Type} (gc : GarbageCollector σ)

/-- The digest keys that a listing gives in front of its first failure. -/
def GarbageCollector.listedDigests (items : List ListingItem) : List String :=
  ((received items).map ListedBlob.key).filter gc.algorithm.isDigest

/-- What a command comes to: the failure of its listing, else that of the live references, else what
its sweep gives. -/
def GarbageCollector.outcome (live : LiveKeys) (delete : Bool) (s : σ) :
    Except BlobError GcStatus :=
  let (items, t) := gc.catalog.list s
  match firstFailure? items, firstFailure? live with
  | some e, _ => .error e
  | none, some e => .error e
  | none, none =>
    match gc.reclaimAll delete (gc.unnamed (received items) live)
        (gc.passOf (received items)).status t with
    | .ok status _ => .ok status
    | .error e _ => .error e

/-- The end of a sweep leaves what was asked for and what was counted, and is dated. -/
theorem GcReport.concluded_keeps (r : GcReport) (now : Timestamp)
    (swept : EStateM.Result BlobError σ GcStatus) :
    let final := (r.concluded now swept).1
    (final.id = r.id ∧ final.gcId = r.gcId ∧ final.delete = r.delete ∧
      final.submittedAt = r.submittedAt) ∧
    final.processed = r.processed ∧ final.skipped = r.skipped ∧ final.finishedAt? = some now := by
  cases swept <;> exact ⟨⟨rfl, rfl, rfl, rfl⟩, rfl, rfl, rfl⟩

/-- How many references a command handles. -/
def GarbageCollector.handled (items : List ListingItem) (live : LiveKeys) : Nat :=
  match firstFailure? items with
  | some _ => 0
  | none => (received live).length

/-- The books of a command that has ended. It has either gone through, with a result, or stopped
with the text of its failure and no result. Its counts tell the phase that it ended in: none after a
listing that failed, those of the full hundreds after references that failed, and those of all
references after a sweep. They are never far behind the references that were handled, and neither
were those that the report showed on the way. -/
structure GcReport.Accounts (items : List ListingItem) (live : LiveKeys)
    (outcome : Except BlobError GcStatus) (now : Timestamp) (final : GcReport) : Prop where
  finished : final.finishedAt? = some now
  ended :
    match outcome with
    | .ok status => final.state = .completed ∧ final.result? = some status
    | .error e => final.state = .aborted e.message ∧ final.result? = none
  counts :
    match firstFailure? items, firstFailure? live with
    | some _, _ => final.processed = 0 ∧ final.skipped = 0
    | none, some _ =>
      IsGreatest {n | progressInterval ∣ n ∧ n ≤ (received live).length} final.processed ∧
        final.skipped =
          idleReferences (gc.listedDigests items) ((received live).take final.processed)
    | none, none =>
      final.processed = (received live).length ∧
        final.skipped = (received live).length -
          ((received live).toFinset ∩ (gc.listedDigests items).toFinset).card
  bounded : final.skipped ≤ final.processed ∧
    final.processed ≤ GarbageCollector.handled items live ∧
    GarbageCollector.handled items live < final.processed + progressInterval
  underway : firstFailure? items = none → ∀ k ≤ (received live).length,
    let shown := (((received live).take k).foldl Marking.mark
      { pass := gc.passOf (received items) }).reported
    shown.2 = idleReferences (gc.listedDigests items) ((received live).take shown.1) ∧
      shown.2 ≤ shown.1 ∧ shown.1 ≤ k ∧ k < shown.1 + progressInterval

namespace GarbageCollector

theorem mem_passOf_received {items : List ListingItem} (key : String) :
    key ∈ (gc.passOf (received items)).candidates ↔ key ∈ gc.listedDigests items := by
  unfold listedDigests
  rw [mem_passOf, List.mem_filter, List.mem_map]
  constructor
  · rintro ⟨blob, hblob, hdigest, rfl⟩
    exact ⟨⟨blob, hblob, rfl⟩, hdigest⟩
  · rintro ⟨⟨blob, hblob, rfl⟩, hdigest⟩
    exact ⟨blob, hblob, hdigest, rfl⟩

/-- Marking after a listing, in terms of what was listed. -/
theorem has_marked (items : List ListingItem) (keys : List String) :
    Marking.Has (gc.listedDigests items) keys
      (keys.foldl Marking.mark { pass := gc.passOf (received items) }) :=
  (Marking.has_foldl_mark (gc.nodup_passOf _) keys).congr gc.mem_passOf_received

/-- What the report shows while references are marked. -/
theorem underway_bounds (items : List ListingItem) {keys : List String} {k : Nat}
    (hk : k ≤ keys.length) :
    let shown := ((keys.take k).foldl Marking.mark { pass := gc.passOf (received items) }).reported
    shown.2 = idleReferences (gc.listedDigests items) (keys.take shown.1) ∧
      shown.2 ≤ shown.1 ∧ shown.1 ≤ k ∧ k < shown.1 + progressInterval := by
  intro shown
  obtain ⟨hidle, hskipped, hle, hlag⟩ := (gc.has_marked items (keys.take k)).reported_bounds
  rw [List.length_take, Nat.min_eq_left hk] at hle hlag
  rw [List.take_take, Nat.min_eq_left hle] at hidle
  exact ⟨hidle, hskipped, hle, hlag⟩

variable {gc} {items : List ListingItem} {live : LiveKeys} {e : BlobError} (now : Timestamp)

/-- The books after a listing that failed. -/
theorem accounts_unlisted (hitems : firstFailure? items = some e) {start : GcReport}
    (hstart : start.processed = 0 ∧ start.skipped = 0 ∧ start.result? = none) :
    (start.abort e now).Accounts gc items live (.error e) now := by
  obtain ⟨hprocessed, hskipped, hresult⟩ := hstart
  have hhandled : handled items live = 0 := by
    unfold handled
    rw [hitems]
  exact {
    finished := rfl
    ended := ⟨rfl, hresult⟩
    counts := by
      rw [hitems]
      exact ⟨hprocessed, hskipped⟩
    bounded := by
      show start.skipped ≤ start.processed ∧ start.processed ≤ handled items live ∧
        handled items live < start.processed + progressInterval
      rw [hhandled, hprocessed, hskipped]
      decide
    underway := fun h => absurd (hitems.symm.trans h) nofun }

/-- The books after live references that failed. -/
theorem accounts_cut (hitems : firstFailure? items = none) (hlive : firstFailure? live = some e)
    {start : GcReport} (hresult : start.result? = none) :
    ((start.progress ((received live).foldl Marking.mark
      { pass := gc.passOf (received items) }).reported).abort e now).Accounts
        gc items live (.error e) now := by
  have hmarked := gc.has_marked items (received live)
  have hhandled : handled items live = (received live).length := by
    unfold handled
    rw [hitems]
  exact {
    finished := rfl
    ended := ⟨rfl, hresult⟩
    counts := by
      rw [hitems, hlive]
      exact ⟨hmarked.isGreatest_reported, hmarked.reported_bounds.1⟩
    bounded := by
      rw [hhandled]
      exact hmarked.reported_bounds.2
    underway := fun _ _ hk => gc.underway_bounds items hk }

/-- The books after a sweep, whether it went through or not. -/
theorem accounts_swept (hitems : firstFailure? items = none) (hlive : firstFailure? live = none)
    {start : GcReport} (hresult : start.result? = none)
    (swept : EStateM.Result BlobError σ GcStatus) :
    (((start.progress ((received live).foldl Marking.mark
      { pass := gc.passOf (received items) }).report.reported).concluded now swept).1).Accounts
        gc items live (match swept with | .ok status _ => .ok status | .error e _ => .error e)
        now := by
  have hmarked := gc.has_marked items (received live)
  generalize (received live).foldl Marking.mark { pass := gc.passOf (received items) } = marking
    at hmarked
  have hhandled : handled items live = (received live).length := by
    unfold handled
    rw [hitems]
  have hcount : marking.processed = (received live).length ∧
      marking.skipped = (received live).length -
        ((received live).toFinset ∩ (gc.listedDigests items).toFinset).card := by
    refine ⟨hmarked.processed, ?_⟩
    rw [hmarked.skipped, ← idleReferences_add_card (gc.listedDigests items), Nat.add_sub_cancel]
  have hbounded : marking.skipped ≤ marking.processed ∧
      marking.processed ≤ handled items live ∧
      handled items live < marking.processed + progressInterval := by
    rw [hhandled, hmarked.processed, hmarked.skipped]
    exact ⟨idleReferences_le _ _, Nat.le_refl _, Nat.lt_add_of_pos_right (by decide)⟩
  obtain ⟨-, hprocessed, hskipped, hfinished⟩ :=
    GcReport.concluded_keeps (start.progress marking.report.reported) now swept
  exact {
    finished := hfinished
    ended := by
      cases swept with
      | ok status u => exact ⟨rfl, rfl⟩
      | error e u => exact ⟨rfl, hresult⟩
    counts := by
      rw [hitems, hlive, hprocessed, hskipped]
      exact hcount
    bounded := by
      rw [hprocessed, hskipped]
      exact hbounded
    underway := fun _ _ hk => gc.underway_bounds items hk }

variable (gc) in
/-- The books of a command, in whatever phase it ends. -/
theorem execute_accounts (live : LiveKeys) (id : CommandId) (command : GcCommand)
    (submitted now : Timestamp) (s : σ) :
    let final := (gc.execute live (.scheduled id gc.id command submitted) now s).1
    final.id = id ∧ final.gcId = gc.id ∧ final.delete = command.delete ∧
      final.submittedAt = submitted ∧
      final.Accounts gc (gc.catalog.list s).1 live (gc.outcome live command.delete s) now := by
  intro final
  cases hlisted : gc.catalog.list s with
  | mk items t =>
    cases hitems : firstFailure? items with
    | some e =>
      obtain ⟨rest, hrest⟩ := eq_received_append hitems
      have hexec : gc.execute live (.scheduled id gc.id command submitted) now s = _ :=
        gc.execute_begin_error _ now (gc.begin_failure (hrest ▸ hlisted))
      have hfinal : final = _ := congrArg Prod.fst hexec
      have houtcome : gc.outcome live command.delete s = .error e := by
        unfold outcome
        simp only [hlisted, hitems]
      rw [hfinal, houtcome]
      exact ⟨rfl, rfl, rfl, rfl, accounts_unlisted now hitems ⟨rfl, rfl, rfl⟩⟩
    | none =>
      have hlist : gc.catalog.list s = ((received items).map .ok, t) :=
        hlisted.trans (congrArg (·, t) (eq_received hitems))
      have hmarkAll := ({ pass := gc.passOf (received items) } : Marking).markAll_eq live
      cases hlive : firstFailure? live with
      | some e =>
        rw [hlive] at hmarkAll
        have hexec := gc.execute_mark_error (.scheduled id gc.id command submitted) now
          (show gc.begin s = .ok (gc.passOf (received items)) t from gc.begin_ok hlist)
          (congrArg Prod.snd hmarkAll)
        rw [hmarkAll] at hexec
        have hfinal : final = _ := congrArg Prod.fst hexec
        have houtcome : gc.outcome live command.delete s = .error e := by
          unfold outcome
          simp only [hlisted, hitems, hlive]
        rw [hfinal, houtcome]
        exact ⟨rfl, rfl, rfl, rfl, accounts_cut now hitems hlive rfl⟩
      | none =>
        rw [hlive] at hmarkAll
        have hgood : ∀ e, .error e ∉ live := by
          intro e he
          rw [eq_received hlive, List.mem_map] at he
          obtain ⟨key, -, hkey⟩ := he
          exact absurd hkey nofun
        have hexec := gc.execute_sweep (.scheduled id gc.id command submitted) now hlist hgood
        rw [hmarkAll] at hexec
        have hfinal : final = _ := congrArg Prod.fst hexec
        have houtcome : gc.outcome live command.delete s =
            match gc.reclaimAll command.delete (gc.unnamed (received items) live)
              (gc.passOf (received items)).status t with
            | .ok status _ => .ok status
            | .error e _ => .error e := by
          unfold outcome
          simp only [hlisted, hitems, hlive]
        rw [hfinal, houtcome]
        obtain ⟨⟨hid, hgc, hdelete, hsubmitted⟩, -⟩ := GcReport.concluded_keeps _ now _
        exact ⟨hid, hgc, hdelete, hsubmitted, accounts_swept now hitems hlive rfl _⟩

end GarbageCollector

end Execution

/-! ## Runners -/

/-- What may happen around a runner: it accepts a command under an id, it carries out one of the
commands that wait, on the live references of that moment, or something else changes what it works
on. -/
inductive RunnerStep (σ : Type)
  | accept (id : CommandId) (command : GcCommand) (submitted : Timestamp)
  | carryOut (id : CommandId) (live : LiveKeys) (now : Timestamp)
  | meanwhile (change : σ → σ)

section Runner

variable {σ : Type}

/-- Whether a command waits to be carried out. -/
def GcRunner.awaits (r : GcRunner σ) (id : CommandId) : Bool :=
  (r.status? id).any fun report => report.state = .scheduled

/-- The runner and what it works on after a step. A command is carried out once. -/
def RunnerStep.apply : RunnerStep σ → GcRunner σ × σ → GcRunner σ × σ
  | accept id command submitted, (r, s) => (r.submit id command submitted, s)
  | carryOut id live now, (r, s) =>
    if r.awaits id then
      let ((_, r), s) := GcRunner.finish { r with live } id now s
      (r, s)
    else (r, s)
  | meanwhile change, (r, s) => (r, change s)

/-- The command that a step is about. -/
def RunnerStep.subject? : RunnerStep σ → Option CommandId
  | accept id _ _ => some id
  | carryOut id _ _ => some id
  | meanwhile _ => none

/-- None of the steps accepts a command under an id. -/
def NeverAccepted (id : CommandId) (steps : List (RunnerStep σ)) : Prop :=
  ∀ command submitted, .accept id command submitted ∉ steps

/-- None of the steps carries out the command with an id. -/
def NeverCarriedOut (id : CommandId) (steps : List (RunnerStep σ)) : Prop :=
  ∀ live now, .carryOut id live now ∉ steps

/-- A new runner, and what it works on, after some steps. -/
def GcRunner.after (gc : GarbageCollector σ) (s : σ) (steps : List (RunnerStep σ)) :
    GcRunner σ × σ :=
  steps.foldl (fun before step => step.apply before) ({ gc, live := [] }, s)

namespace GcRunner

theorem status?_record (r : GcRunner σ) (report : GcReport) (id : CommandId) :
    (r.record report).status? id = if report.id = id then some report else r.status? id := by
  have hid : compare report.id.text id.text = .eq ↔ report.id = id := by
    rw [compare_eq_iff_eq, CommandId.mk.injEq]
  unfold status? record
  rw [ExtTreeMap.getElem?_insert]
  simp only [hid]

theorem after_append (gc : GarbageCollector σ) (s : σ) (steps more : List (RunnerStep σ)) :
    after gc s (steps ++ more) =
      more.foldl (fun before step => step.apply before) (after gc s steps) :=
  List.foldl_append

theorem after_concat (gc : GarbageCollector σ) (s : σ) (steps : List (RunnerStep σ))
    (step : RunnerStep σ) : after gc s (steps ++ [step]) = step.apply (after gc s steps) :=
  after_append gc s steps [step]

/-- The entries of a runner: one that waits is as it was accepted. -/
structure Booked (gc : GarbageCollector σ) (r : GcRunner σ) : Prop where
  collector : r.gc = gc
  waiting : ∀ {id : CommandId} {report : GcReport}, r.status? id = some report →
    report.state = .scheduled → ∃ command submitted, report = .scheduled id gc.id command submitted

variable {gc : GarbageCollector σ} {r : GcRunner σ} {s : σ} {id : CommandId} {report : GcReport}

theorem status?_empty (gc : GarbageCollector σ) (live : LiveKeys) (id : CommandId) :
    status? { gc, live } id = none := ExtTreeMap.getElem?_empty

theorem booked_empty (gc : GarbageCollector σ) (live : LiveKeys) : Booked gc { gc, live } where
  collector := rfl
  waiting h := absurd ((status?_empty gc live _).symm.trans h) nofun

/-- The entry of a command that has just been accepted. -/
theorem Booked.status?_accept (h : Booked gc r) (id : CommandId) (command : GcCommand)
    (submitted : Timestamp) :
    ((RunnerStep.accept id command submitted).apply (r, s)).1.status? id =
      some (.scheduled id gc.id command submitted) := by
  rw [← h.collector]
  show (GcRunner.record _ _).status? _ = _
  rw [status?_record]
  exact if_pos rfl

/-- Recording a report on a command of the runner. -/
theorem Booked.record (h : Booked gc r)
    (hwaiting : report.state = .scheduled →
      ∃ command submitted, report = .scheduled report.id gc.id command submitted) :
    Booked gc (r.record report) where
  collector := h.collector
  waiting {id other} hother hstate := by
    rw [status?_record] at hother
    split at hother
    case isTrue hid =>
      obtain rfl := Option.some.inj hother
      exact hid ▸ hwaiting hstate
    case isFalse => exact h.waiting hother hstate

/-- Booked entries stay so when the runner gets other references. -/
theorem Booked.withLive (h : Booked gc r) (live : LiveKeys) : Booked gc { r with live } where
  collector := h.collector
  waiting hreport := h.waiting hreport

/-- A command that does not wait is not carried out. -/
theorem apply_carryOut_of_not_awaits {live : LiveKeys} {now : Timestamp}
    (h : r.awaits id = false) : (RunnerStep.carryOut id live now).apply (r, s) = (r, s) :=
  if_neg (by simp [h])

/-- A command that waits is carried out as it was accepted, and the answer is what goes into the
entry. -/
theorem Booked.finish_eq (h : Booked gc r) {command : GcCommand} {submitted : Timestamp}
    (hwaits : r.status? id = some (.scheduled id gc.id command submitted)) (live : LiveKeys)
    (now : Timestamp) (s : σ) :
    finish { r with live } id now s =
      ((some (gc.execute live (.scheduled id gc.id command submitted) now s).1,
        { r with live }.record (gc.execute live (.scheduled id gc.id command submitted) now s).1),
        (gc.execute live (.scheduled id gc.id command submitted) now s).2) := by
  have hstatus : status? { r with live } id = some (.scheduled id gc.id command submitted) := hwaits
  have hgc : r.gc = gc := h.collector
  unfold finish
  rw [hstatus, hgc]
  rfl

theorem Booked.apply_carryOut (h : Booked gc r) {command : GcCommand} {submitted : Timestamp}
    (hwaits : r.status? id = some (.scheduled id gc.id command submitted)) (live : LiveKeys)
    (now : Timestamp) :
    (RunnerStep.carryOut id live now).apply (r, s) =
      ({ r with live }.record (gc.execute live (.scheduled id gc.id command submitted) now s).1,
        (gc.execute live (.scheduled id gc.id command submitted) now s).2) := by
  have hawaits : r.awaits id = true := by
    unfold awaits
    rw [hwaits]
    rfl
  unfold RunnerStep.apply
  dsimp only
  rw [if_pos hawaits, h.finish_eq hwaits live now s]

/-- The end of a command is no waiting. -/
theorem state_of_accounts {items : List ListingItem} {live : LiveKeys}
    {outcome : Except BlobError GcStatus} {now : Timestamp} {final : GcReport}
    (h : final.Accounts gc items live outcome now) : final.state ≠ .scheduled := by
  have hended := h.ended
  cases outcome with
  | ok status =>
    rw [hended.1]
    exact GcCommandState.noConfusion
  | error e =>
    rw [hended.1]
    exact GcCommandState.noConfusion

/-- Whatever happens to a runner, its entries stay booked. -/
theorem Booked.apply (h : Booked gc r) (step : RunnerStep σ) : Booked gc (step.apply (r, s)).1 := by
  cases step with
  | accept id command submitted =>
    refine h.record fun _ => ⟨command, submitted, ?_⟩
    show GcReport.scheduled id r.gc.id command submitted = _
    rw [h.collector]
    rfl
  | carryOut id live now =>
    by_cases hawaits : r.awaits id = true
    · obtain ⟨report, hreport, hstate⟩ := (Option.any_eq_true _ _).1 hawaits
      obtain ⟨command, submitted, rfl⟩ := h.waiting hreport (of_decide_eq_true hstate)
      obtain ⟨-, -, -, -, haccounts⟩ := gc.execute_accounts live id command submitted now s
      rw [h.apply_carryOut hreport]
      exact (h.withLive live).record fun hwaits => absurd hwaits (state_of_accounts haccounts)
    · rw [apply_carryOut_of_not_awaits (Bool.eq_false_of_not_eq_true hawaits)]
      exact h
  | meanwhile change => exact h

/-- A step changes no entry but that of the command that it is about. -/
theorem Booked.status?_apply_of_ne (h : Booked gc r) {step : RunnerStep σ}
    (hne : step.subject? ≠ some id) : (step.apply (r, s)).1.status? id = r.status? id := by
  cases step with
  | accept other command submitted =>
    show (GcRunner.record _ _).status? id = _
    rw [status?_record]
    exact if_neg fun hid => hne (congrArg some hid)
  | carryOut other live now =>
    by_cases hawaits : r.awaits other = true
    · obtain ⟨report, hreport, hstate⟩ := (Option.any_eq_true _ _).1 hawaits
      obtain ⟨command, submitted, rfl⟩ := h.waiting hreport (of_decide_eq_true hstate)
      have hid := (gc.execute_accounts live other command submitted now s).1
      rw [h.apply_carryOut hreport]
      show (GcRunner.record _ _).status? id = _
      rw [status?_record, hid, if_neg fun hother => hne (congrArg some hother)]
      rfl
    · rw [apply_carryOut_of_not_awaits (Bool.eq_false_of_not_eq_true hawaits)]
  | meanwhile change => rfl

/-- A step leaves an entry alone, or its absence, unless it accepts a command under its id or
carries out the one that waits there. -/
theorem Booked.status?_apply (h : Booked gc r) {step : RunnerStep σ}
    (hfresh : ∀ command submitted, step ≠ .accept id command submitted)
    (hkeep : r.awaits id = false ∨ ∀ live now, step ≠ .carryOut id live now) :
    (step.apply (r, s)).1.status? id = r.status? id := by
  by_cases hsubject : step.subject? = some id
  · cases step with
    | accept other command submitted =>
      obtain rfl : other = id := Option.some.inj hsubject
      exact absurd rfl (hfresh command submitted)
    | carryOut other live now =>
      obtain rfl : other = id := Option.some.inj hsubject
      rw [apply_carryOut_of_not_awaits (hkeep.resolve_right fun hne => hne live now rfl)]
    | meanwhile change => exact absurd hsubject nofun
  · exact h.status?_apply_of_ne hsubject

/-- Any number of such steps. -/
theorem Booked.foldl_apply (h : Booked gc r) (s : σ) (steps : List (RunnerStep σ)) :
    let later := steps.foldl (fun before step => step.apply before) (r, s)
    Booked gc later.1 ∧ ∀ {id}, NeverAccepted id steps → (r.awaits id = false ∨ NeverCarriedOut id steps) →
      later.1.status? id = r.status? id := by
  induction steps generalizing r s with
  | nil => exact ⟨h, fun _ _ => rfl⟩
  | cons step steps ih =>
    obtain ⟨hbooked, hrun⟩ := ih (h.apply step) (step.apply (r, s)).2
    refine ⟨hbooked, fun {id} hfresh hkeep => ?_⟩
    have hstep : (step.apply (r, s)).1.status? id = r.status? id := by
      refine h.status?_apply (fun command submitted heq => hfresh command submitted ?_)
        (hkeep.imp_right fun hnot live now heq => hnot live now ?_)
      · exact heq ▸ List.mem_cons_self
      · exact heq ▸ List.mem_cons_self
    refine (hrun (fun command submitted hmem => hfresh command submitted ?_) ?_).trans hstep
    · exact List.mem_cons_of_mem _ hmem
    · refine hkeep.imp (fun hawaits => ?_) fun hnot live now hmem => hnot live now ?_
      · unfold awaits
        rw [hstep]
        exact hawaits
      · exact List.mem_cons_of_mem _ hmem

theorem booked_after (gc : GarbageCollector σ) (s : σ) (steps : List (RunnerStep σ)) :
    Booked gc (after gc s steps).1 :=
  ((booked_empty gc []).foldl_apply s steps).1

/-- An id that was not drawn has no entry. -/
theorem status?_after_of_neverAccepted (gc : GarbageCollector σ) (s : σ)
    {steps : List (RunnerStep σ)} (h : NeverAccepted id steps) :
    (after gc s steps).1.status? id = none := by
  refine (((booked_empty gc []).foldl_apply s steps).2 h (.inl ?_)).trans (status?_empty gc [] id)
  unfold awaits
  rw [status?_empty]
  rfl

/-- **The books of a command.** Take any collector, and a runner of it in any history: commands that
are accepted and carried out, on whatever live references, in whatever order, and whatever happens
between to what the collector works on. A command that is accepted under an id that no other one
has gets an entry, which shows it as accepted until it is carried out. Then it ends, and its final
report, which is what the runner answers, keeps the books of the listing and the references of that
moment, and no later step changes it. Neither accepting nor carrying it out changes the entry of any
other command. -/
theorem accounts_of_command (gc : GarbageCollector σ) (s : σ) (earlier : List (RunnerStep σ))
    (id : CommandId) (command : GcCommand) (submitted : Timestamp)
    (between : List (RunnerStep σ)) (live : LiveKeys) (now : Timestamp)
    (hfresh : NeverAccepted id (earlier ++ between)) (hwaits : NeverCarriedOut id between) :
    let accepted := earlier ++ [.accept id command submitted]
    let ended := accepted ++ between ++ [.carryOut id live now]
    let start := GcReport.scheduled id gc.id command submitted
    let runner := (after gc s (accepted ++ between)).1
    let t := (after gc s (accepted ++ between)).2
    (after gc s earlier).1.status? id = none ∧
    (∀ steps, steps <+: between → (after gc s (accepted ++ steps)).1.status? id = some start) ∧
    ∃ final,
      (GcRunner.finish { runner with live } id now t).1.1 = some final ∧
      (∀ later, NeverAccepted id later →
        (after gc s (ended ++ later)).1.status? id = some final) ∧
      final.id = id ∧ final.gcId = gc.id ∧ final.delete = command.delete ∧
      final.submittedAt = submitted ∧
      final.Accounts gc (gc.catalog.list t).1 live (gc.outcome live command.delete t) now ∧
      ∀ other ≠ id,
        (after gc s accepted).1.status? other = (after gc s earlier).1.status? other ∧
        (after gc s ended).1.status? other = runner.status? other := by
  intro accepted ended start runner t
  have hearlier : Booked gc (after gc s earlier).1 := booked_after gc s earlier
  have hnone : NeverAccepted id earlier := fun other moment hmem =>
    hfresh other moment (List.mem_append_left between hmem)
  have hstart : (after gc s accepted).1.status? id = some start := by
    rw [after_concat]
    exact hearlier.status?_accept id command submitted
  have hwaiting : ∀ steps, steps <+: between →
      (after gc s (accepted ++ steps)).1.status? id = some start := by
    intro steps hsteps
    rw [after_append, ← hstart]
    refine ((booked_after gc s accepted).foldl_apply _ steps).2 (fun other moment hmem => ?_)
      (.inr fun others moment hmem => hwaits others moment (hsteps.subset hmem))
    exact hfresh other moment (List.mem_append_right earlier (hsteps.subset hmem))
  have hrunner : Booked gc runner := booked_after gc s (accepted ++ between)
  have hstatus : runner.status? id = some start := hwaiting between (List.prefix_refl between)
  obtain ⟨hid, hgc, hdelete, hsubmitted, haccounts⟩ :=
    gc.execute_accounts live id command submitted now t
  have hended : after gc s ended = (RunnerStep.carryOut id live now).apply (runner, t) :=
    after_concat gc s (accepted ++ between) _
  have hfinal : (after gc s ended).1.status? id = some (gc.execute live start now t).1 := by
    rw [hended, hrunner.apply_carryOut hstatus, status?_record]
    exact if_pos hid
  refine ⟨status?_after_of_neverAccepted gc s hnone, hwaiting, (gc.execute live start now t).1, ?_,
    fun later hlater => ?_, hid, hgc, hdelete, hsubmitted, haccounts, fun other hother => ⟨?_, ?_⟩⟩
  · rw [hrunner.finish_eq hstatus live now t]
  · rw [after_append, ← hfinal]
    refine ((booked_after gc s ended).foldl_apply _ later).2 hlater (.inl ?_)
    unfold awaits
    rw [hfinal]
    exact decide_eq_false (state_of_accounts haccounts)
  · rw [after_concat]
    refine hearlier.status?_apply_of_ne fun hsubject => ?_
    have hsame : some id = some other := hsubject
    exact hother (Option.some.inj hsame).symm
  · rw [hended]
    exact hrunner.status?_apply_of_ne fun hsubject => hother (Option.some.inj hsubject).symm

/-- Of two listed blobs one is referred to twice, next to a key that is not listed. Another command
is accepted and carried out before. -/
theorem accounts_of_first_command :
    let gc : GarbageCollector Unit := {
      catalog := {
        id := "vault"
        list := fun s => ([.ok ⟨"acbd18db4cc2f85cedef654fccc4a4d8", 3⟩,
          .ok ⟨"37b51d194a7513e45b56f6524f2d51f2", 3⟩], s)
        size? := fun _ s => .ok (some 3) s
        remove := fun _ s => s }
      algorithm := .md5 }
    let live : LiveKeys := [.ok "acbd18db4cc2f85cedef654fccc4a4d8",
      .ok "acbd18db4cc2f85cedef654fccc4a4d8", .ok "elsewhere"]
    let others : List (RunnerStep Unit) := [.accept ⟨"count"⟩ ⟨false⟩ ⟨0, 0, 0⟩,
      .carryOut ⟨"count"⟩ [.error .unsupported] ⟨0, 1, 0⟩]
    NeverAccepted ⟨"sweep"⟩ others ∧ NeverCarriedOut ⟨"sweep"⟩ others ∧
    ∃ final,
      (GcRunner.after gc () (.accept ⟨"sweep"⟩ ⟨true⟩ ⟨0, 0, 0⟩ :: others ++
        [.carryOut ⟨"sweep"⟩ live ⟨0, 2, 0⟩])).1.status? ⟨"sweep"⟩ = some final ∧
      final.state = .completed ∧ final.result? = some ⟨3, 1, 3, 1⟩ ∧
      final.processed = 3 ∧ final.skipped = 2 ∧ final.finishedAt? = some ⟨0, 2, 0⟩ := by
  intro gc live others
  have hfresh : NeverAccepted ⟨"sweep"⟩ others := by
    intro command submitted hmem
    rcases List.mem_cons.1 hmem with heq | hmem
    · exact absurd (RunnerStep.accept.inj heq).1 (by decide)
    · exact absurd (List.mem_singleton.1 hmem) nofun
  have hwaits : NeverCarriedOut ⟨"sweep"⟩ others := by
    intro refs moment hmem
    rcases List.mem_cons.1 hmem with heq | hmem
    · exact absurd heq nofun
    · exact absurd (RunnerStep.carryOut.inj (List.mem_singleton.1 hmem)).1 (by decide)
  obtain ⟨-, -, final, -, hentry, -, -, -, -, haccounts, -⟩ :=
    accounts_of_command gc () [] ⟨"sweep"⟩ ⟨true⟩ ⟨0, 0, 0⟩ others live ⟨0, 2, 0⟩ hfresh hwaits
  have houtcome : gc.outcome live true () = .ok ⟨3, 1, 3, 1⟩ := by decide +kernel
  have hended := haccounts.ended
  rw [show gc.outcome live _ _ = _ from houtcome] at hended
  have hcounts : final.processed = 3 ∧ final.skipped = 3 - _ := haccounts.counts
  refine ⟨hfresh, hwaits, final, hentry [] nofun, hended.1, hended.2, hcounts.1,
    hcounts.2.trans ?_, haccounts.finished⟩
  decide +kernel

end GcRunner

end Runner

end BlobVault
