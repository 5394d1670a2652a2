import BlobVault.KeyStrategy
import BlobVault.Proofs.Namespace

/-!
# Accepted keys

A key that some strategy accepts is plain and carries no range, so every store takes it as it is.
-/

namespace BlobVault

theorem Text.splitLast?_eq_none {sep : Char} {text : List Char} (h : sep ∉ text) :
    splitLast? sep text = none := by
  induction text with
  | nil => rfl
  | cons c text ih =>
    rw [List.mem_cons, not_or] at h
    unfold splitLast?
    rw [ih h.2]
    exact if_neg (Ne.symm h.1)

theorem Text.eq_of_splitLast? {sep : Char} {text before after : List Char}
    (h : splitLast? sep text = some (before, after)) : text = before ++ sep :: after := by
  induction text generalizing before with
  | nil => exact absurd h nofun
  | cons c text ih =>
    unfold splitLast? at h
    cases hrest : splitLast? sep text with
    | some found =>
      obtain ⟨front, rest⟩ := found
      rw [hrest] at h
      obtain ⟨rfl, rfl⟩ := Prod.mk.inj (Option.some.inj h)
      exact congrArg (c :: ·) (ih hrest)
    | none =>
      rw [hrest] at h
      dsimp only at h
      split at h
      · rename_i hc
        obtain ⟨rfl, rfl⟩ := Prod.mk.inj (Option.some.inj h)
        exact congrArg (· :: text) hc
      · exact absurd h nofun

/-- The base of a plain key is plain. -/
theorem ByteRange.plainChars_splitKey {key : String} (h : PlainChars key.toList) :
    PlainChars (splitKey key).1.toList := by
  unfold splitKey
  cases hkey : ofKey? key.toList with
  | none => exact h
  | some found =>
    obtain ⟨base, range⟩ := found
    obtain ⟨⟨front, last⟩, hfront, hrest⟩ := Option.bind_eq_some_iff.1 hkey
    obtain ⟨⟨base', first⟩, hbase, hrest⟩ := Option.bind_eq_some_iff.1 hrest
    dsimp only at hrest ⊢
    rw [String.toList_ofList]
    split at hrest
    · exact absurd hrest nofun
    · rename_i hne
      obtain ⟨_, -, heq⟩ := Option.map_eq_some_iff.1 hrest
      obtain ⟨rfl, -⟩ := Prod.mk.inj heq
      refine ⟨hne, fun hmem => h.2 ?_⟩
      rw [Text.eq_of_splitLast? hfront, Text.eq_of_splitLast? hbase]
      simp [hmem]

/-- A key without a separator carries no range. -/
theorem ByteRange.splitKey_of_notMem {key : String} (h : rangeSeparator ∉ key.toList) :
    splitKey key = (key, none) := by
  unfold splitKey ofKey?
  rw [Text.splitLast?_eq_none h]
  rfl

theorem ByteRange.splitKey_of_not_isAnnotated {key : String} (h : ¬ isAnnotated key = true) :
    splitKey key = (key, none) := by
  unfold isAnnotated splitKey at h
  unfold splitKey
  cases hkey : ofKey? key.toList with
  | none => rfl
  | some found =>
    rw [hkey] at h
    exact absurd rfl h

theorem ByteRange.not_isAnnotated_of_splitKey {key : String} (h : splitKey key = (key, none)) :
    ¬ isAnnotated key = true := by
  unfold isAnnotated
  rw [h]
  exact Bool.false_ne_true

/-- Some strategy accepts the key. -/
def KeyStrategy.Accepted (key : String) : Prop := ∃ s : KeyStrategy, s.validate key = .ok ()

theorem KeyStrategy.accepted_of_isDigest {algorithm : DigestAlgorithm} {key : String}
    (h : algorithm.isDigest key = true) : Accepted key := ⟨.digest algorithm, if_pos h⟩

namespace KeyStrategy.Accepted

variable {key : String}

theorem plainChars_and_separator (h : Accepted key) :
    PlainChars key.toList ∧ rangeSeparator ∉ key.toList := by
  obtain ⟨s, hs⟩ := h
  unfold validate at hs
  cases s with
  | digest algorithm =>
    by_cases hdigest : algorithm.isDigest key = true
    · refine ⟨DigestAlgorithm.plainChars_of_isDigest hdigest, fun hmem => ?_⟩
      have hlower := DigestAlgorithm.isLowerDigit_of_isDigest hdigest _ hmem
      revert hlower
      decide
    · simp [hdigest] at hs
  | supplied =>
    by_cases hplain : isPlainKey key = true
    · unfold isPlainKey at hplain
      rw [Bool.and_eq_true, Bool.and_eq_true, decide_eq_true_eq, Bool.not_eq_true',
        Bool.not_eq_true', ← Bool.not_eq_true, ← Bool.not_eq_true, List.contains_iff_mem,
        List.contains_iff_mem] at hplain
      exact ⟨⟨hplain.1.1, hplain.1.2⟩, hplain.2⟩
    · simp [hplain] at hs

theorem plainChars (h : Accepted key) : PlainChars key.toList := h.plainChars_and_separator.1

theorem ne_empty (h : Accepted key) : key ≠ "" := by
  rintro rfl
  exact h.plainChars.1 rfl

/-- An accepted key carries no range. -/
theorem splitKey (h : Accepted key) : ByteRange.splitKey key = (key, none) :=
  ByteRange.splitKey_of_notMem h.plainChars_and_separator.2

theorem not_isAnnotated (h : Accepted key) : ¬ ByteRange.isAnnotated key = true :=
  ByteRange.not_isAnnotated_of_splitKey h.splitKey

end KeyStrategy.Accepted

end BlobVault
