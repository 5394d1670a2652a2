import BlobVault.Proofs.Gc.Command

/-!
# Counts of references

While a command marks live references, it counts them and those among them that take no candidate
off. The counts go into its report every hundred references and at the end of marking, so they may
lag behind.

1. `received`, `firstFailure?`: what comes through of a stream that may fail.
2. `idleReferences_add_card`: the idle references and the candidates that are named are all
   references.
3. `Marking.Has.mark`, `Marking.has_foldl_mark`: the counts and the last reported ones after any
   references.
4. `Marking.Has.reported_bounds`, `Marking.Has.isGreatest_reported`: how far they lag behind.
-/

namespace BlobVault

/-! ## Streams with failures -/

/-- What came through in front of the first failure. -/
def received {α : Type} : List (Except BlobError α) → List α
  | .ok a :: items => a :: received items
  | _ => []

/-- The first failure. -/
def firstFailure? {α : Type} : List (Except BlobError α) → Option BlobError
  | [] => none
  | .error e :: _ => some e
  | .ok _ :: items => firstFailure? items

/-- Where nothing fails, all comes through. -/
theorem received_map_ok {α : Type} (items : List α) : received (items.map .ok) = items := by
  induction items with
  | nil => rfl
  | cons a items ih => exact congrArg (a :: ·) ih

section Streams

variable {α : Type} {items : List (Except BlobError α)} {e : BlobError}

theorem eq_received (h : firstFailure? items = none) : items = (received items).map .ok := by
  induction items with
  | nil => rfl
  | cons item items ih =>
    cases item with
    | error e => exact absurd h nofun
    | ok a => exact congrArg _ (ih h)

theorem eq_received_append (h : firstFailure? items = some e) :
    ∃ rest, items = (received items).map .ok ++ .error e :: rest := by
  induction items with
  | nil => exact absurd h nofun
  | cons item items ih =>
    cases item with
    | error e' =>
      obtain rfl : e' = e := Option.some.inj h
      exact ⟨items, rfl⟩
    | ok a =>
      obtain ⟨rest, hrest⟩ := ih h
      exact ⟨rest, congrArg _ hrest⟩

end Streams

/-! ## References that take nothing off -/

/-- The references that take no candidate off: those of a key that is none, and those of a key that
was referred to before. -/
def idleReferences (candidates keys : List String) : Nat :=
  keys.zipIdx.countP fun item => item.1 ∉ candidates ∨ item.1 ∈ keys.take item.2

theorem idleReferences_append (candidates keys : List String) (key : String) :
    idleReferences candidates (keys ++ [key]) =
      idleReferences candidates keys + if key ∈ candidates ∧ key ∉ keys then 0 else 1 := by
  -- what was idle in front stays so: it depends on what came before it only
  have hfront : keys.zipIdx.countP
        (fun item => decide (item.1 ∉ candidates ∨ item.1 ∈ (keys ++ [key]).take item.2)) =
      keys.zipIdx.countP fun item =>
        decide (item.1 ∉ candidates ∨ item.1 ∈ keys.take item.2) := by
    refine List.countP_congr fun item hitem => ?_
    have hi := List.snd_lt_add_of_mem_zipIdx hitem
    rw [List.take_append_of_le_length (by omega)]
  unfold idleReferences
  rw [List.zipIdx_append, List.countP_append, hfront]
  congr 1
  rw [Nat.zero_add, List.zipIdx_singleton, List.countP_singleton]
  simp only [List.take_left', decide_eq_true_eq]
  by_cases h : key ∈ candidates ∧ key ∉ keys
  · rw [if_pos h, if_neg]
    tauto
  · rw [if_neg h, if_pos]
    tauto

/-- A reference is idle or takes a candidate off, and each candidate that is named is taken off
once. -/
theorem idleReferences_add_card (candidates keys : List String) :
    idleReferences candidates keys + (keys.toFinset ∩ candidates.toFinset).card = keys.length := by
  induction keys using List.reverseRecOn with
  | nil => rfl
  | append_singleton keys key ih =>
    rw [idleReferences_append, List.length_append, List.toFinset_append]
    by_cases h : key ∈ candidates ∧ key ∉ keys
    · have hnew : (keys.toFinset ∪ [key].toFinset) ∩ candidates.toFinset =
          insert key (keys.toFinset ∩ candidates.toFinset) := by
        ext k
        simp only [Finset.mem_inter, Finset.mem_union, List.mem_toFinset, List.mem_singleton,
          Finset.mem_insert]
        constructor
        · tauto
        · rintro (rfl | hk)
          · exact ⟨.inr rfl, h.1⟩
          · exact ⟨.inl hk.1, hk.2⟩
      have hfresh : key ∉ keys.toFinset ∩ candidates.toFinset := by
        rw [Finset.mem_inter, List.mem_toFinset]
        exact fun hk => h.2 hk.1
      rw [hnew, Finset.card_insert_of_notMem hfresh, if_pos h, List.length_singleton]
      omega
    · have hold : (keys.toFinset ∪ [key].toFinset) ∩ candidates.toFinset =
          keys.toFinset ∩ candidates.toFinset := by
        ext k
        simp only [Finset.mem_inter, Finset.mem_union, List.mem_toFinset, List.mem_singleton]
        constructor
        · rintro ⟨hk | rfl, hc⟩
          · exact ⟨hk, hc⟩
          · exact ⟨by tauto, hc⟩
        · exact fun hk => ⟨.inl hk.1, hk.2⟩
      rw [hold, if_neg h, List.length_singleton]
      omega

theorem idleReferences_le (candidates keys : List String) :
    idleReferences candidates keys ≤ keys.length := by
  rw [← idleReferences_add_card candidates keys]
  exact Nat.le_add_right _ _

theorem idleReferences_congr {candidates others : List String}
    (h : ∀ key, key ∈ candidates ↔ key ∈ others) (keys : List String) :
    idleReferences candidates keys = idleReferences others keys := by
  unfold idleReferences
  simp only [h]

/-! ## Marking -/

namespace Marking

theorem processed_mark (m : Marking) (key : String) :
    (m.mark key).processed = m.processed + 1 := by
  unfold mark
  dsimp only
  split <;> rfl

theorem skipped_mark (m : Marking) (key : String) :
    (m.mark key).skipped = if m.pass.isCandidate key then m.skipped else m.skipped + 1 := by
  unfold mark
  dsimp only
  split <;> rfl

theorem reported_mark (m : Marking) (key : String) :
    (m.mark key).reported =
      if (m.processed + 1) % progressInterval = 0 then
        ((m.mark key).processed, (m.mark key).skipped)
      else m.reported := by
  unfold mark
  dsimp only
  split <;> rfl

/-- Marking goes through the references in front of the first failure, and reports the end if there
is none. -/
theorem markAll_eq (m : Marking) (live : LiveKeys) :
    m.markAll live =
      match firstFailure? live with
      | some e => ((received live).foldl mark m, some e)
      | none => (((received live).foldl mark m).report, none) := by
  induction live generalizing m with
  | nil => rfl
  | cons item live ih =>
    cases item with
    | error e => rfl
    | ok key => exact ih (m.mark key)

/-- Marking that started with some candidates has handled some references: its counts are theirs,
the reported counts are those of the full hundreds in front, and the candidates left are those that
no reference names. -/
structure Has (candidates keys : List String) (m : Marking) : Prop where
  nodup : m.pass.candidates.Nodup
  left : ∀ key, key ∈ m.pass.candidates ↔ key ∈ candidates ∧ key ∉ keys
  processed : m.processed = keys.length
  skipped : m.skipped = idleReferences candidates keys
  reported : m.reported = (keys.length / progressInterval * progressInterval,
    idleReferences candidates (keys.take (keys.length / progressInterval * progressInterval)))

variable {candidates others keys : List String} {m : Marking}

theorem Has.congr (h : Has candidates keys m) (hsame : ∀ key, key ∈ candidates ↔ key ∈ others) :
    Has others keys m where
  nodup := h.nodup
  left key := by rw [h.left, hsame]
  processed := h.processed
  skipped := by rw [h.skipped, idleReferences_congr hsame]
  reported := by rw [h.reported, idleReferences_congr hsame]

theorem has_nil {pass : GcPass} (h : pass.candidates.Nodup) : Has pass.candidates [] { pass } where
  nodup := h
  left key := by simp
  processed := rfl
  skipped := rfl
  reported := rfl

/-- Between two reports the full hundreds are the same. -/
theorem hundreds_succ (n : Nat) :
    (n + 1) / progressInterval * progressInterval =
      if (n + 1) % progressInterval = 0 then n + 1
      else n / progressInterval * progressInterval := by
  unfold progressInterval
  split <;> omega

/-- One more reference. -/
theorem Has.mark (h : Has candidates keys m) (key : String) :
    Has candidates (keys ++ [key]) (m.mark key) := by
  have hwas : m.pass.isCandidate key = true ↔ key ∈ candidates ∧ key ∉ keys := by
    unfold GcPass.isCandidate
    rw [List.contains_iff_mem, h.left]
  have hskipped : (m.mark key).skipped = idleReferences candidates (keys ++ [key]) := by
    rw [skipped_mark, idleReferences_append, h.skipped]
    simp only [hwas]
    split <;> rfl
  have hprocessed : (m.mark key).processed = (keys ++ [key]).length := by
    rw [processed_mark, h.processed, List.length_append, List.length_singleton]
  refine ⟨?_, fun k => ?_, hprocessed, hskipped, ?_⟩
  · rw [pass_mark]
    exact GcPass.nodup_mark h.nodup key
  · rw [pass_mark, GcPass.mem_mark h.nodup, h.left, List.mem_append, List.mem_singleton]
    tauto
  · rw [reported_mark, hprocessed, hskipped, h.processed, List.length_append,
      List.length_singleton, hundreds_succ]
    split
    · rw [List.take_of_length_le (by simp)]
    · rw [h.reported, List.take_append_of_le_length (Nat.div_mul_le_self _ _)]

/-- All references in front of a failure. -/
theorem has_foldl_mark {pass : GcPass} (h : pass.candidates.Nodup) (keys : List String) :
    Has pass.candidates keys (keys.foldl mark { pass }) := by
  induction keys using List.reverseRecOn with
  | nil => exact has_nil h
  | append_singleton keys key ih =>
    rw [List.foldl_append]
    exact ih.mark key

/-- The reported counts never lag by a hundred references. -/
theorem Has.reported_bounds (h : Has candidates keys m) :
    m.reported.2 = idleReferences candidates (keys.take m.reported.1) ∧
      m.reported.2 ≤ m.reported.1 ∧ m.reported.1 ≤ keys.length ∧
      keys.length < m.reported.1 + progressInterval := by
  have hle : keys.length / progressInterval * progressInterval ≤ keys.length :=
    Nat.div_mul_le_self _ _
  rw [h.reported]
  refine ⟨rfl, ?_, hle, Nat.lt_div_mul_add (by decide)⟩
  refine (idleReferences_le _ _).trans ?_
  rw [List.length_take]
  exact Nat.min_le_left _ _

/-- The reported count of references is the last full hundred. -/
theorem Has.isGreatest_reported (h : Has candidates keys m) :
    IsGreatest {n | progressInterval ∣ n ∧ n ≤ keys.length} m.reported.1 := by
  rw [h.reported]
  refine ⟨⟨Nat.dvd_mul_left _ _, Nat.div_mul_le_self _ _⟩, ?_⟩
  rintro n ⟨⟨k, rfl⟩, hle⟩
  rw [Nat.mul_comm]
  exact Nat.mul_le_mul_right _ ((Nat.le_div_iff_mul_le (by decide)).2 (by rwa [Nat.mul_comm]))

end Marking

end BlobVault
