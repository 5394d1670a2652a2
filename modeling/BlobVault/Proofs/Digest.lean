import BlobVault.Digest.Algorithm
import Mathlib

/-!
# Hexadecimal text and digests

Hexadecimal text has two lowercase digits for each byte, and tells the bytes. The digests of an
algorithm have the number of bytes that its keys stand for, so the digest of any content is a digest
key.
-/

namespace BlobVault

/-! ## Hexadecimal text -/

namespace Hex

theorem digit_inj {a b : Nat} (ha : a < 16) (hb : b < 16) (h : digit a = digit b) : a = b := by
  have hall : ∀ m < 16, ∀ n < 16, digit m = digit n → m = n := by decide
  exact hall a ha b hb h

theorem encodeChars_inj {a b : Bytes} (h : encodeChars a = encodeChars b) : a = b := by
  induction a generalizing b with
  | nil =>
    cases b with
    | nil => rfl
    | cons y b => simp [encodeChars] at h
  | cons x a ih =>
    cases b with
    | nil => simp [encodeChars] at h
    | cons y b =>
      unfold encodeChars at h
      obtain ⟨hhigh, hrest⟩ := List.cons.inj h
      obtain ⟨hlow, hrest⟩ := List.cons.inj hrest
      have hx := x.toNat_lt
      have hy := y.toNat_lt
      have hh : x.toNat / 16 = y.toNat / 16 := digit_inj (by omega) (by omega) hhigh
      have hl : x.toNat % 16 = y.toNat % 16 := digit_inj (by omega) (by omega) hlow
      rw [ih hrest, show x = y from UInt8.toNat_inj.1 (by omega)]

theorem length_encodeChars (bytes : Bytes) : (encodeChars bytes).length = 2 * bytes.length := by
  induction bytes with
  | nil => rfl
  | cons b bytes ih =>
    unfold encodeChars
    rw [List.length_cons, List.length_cons, List.length_cons, ih]
    omega

theorem isLowerDigit_digit {n : Nat} (h : n < 16) : isLowerDigit (digit n) = true := by
  interval_cases n <;> decide

theorem isLowerDigit_of_mem_encodeChars {bytes : Bytes} {c : Char} (h : c ∈ encodeChars bytes) :
    isLowerDigit c = true := by
  induction bytes with
  | nil => exact absurd h List.not_mem_nil
  | cons b bytes ih =>
    have hb : b.toNat < 256 := b.toNat_lt
    unfold encodeChars at h
    rw [List.mem_cons, List.mem_cons] at h
    rcases h with rfl | rfl | h
    · exact isLowerDigit_digit (by omega)
    · exact isLowerDigit_digit (by omega)
    · exact ih h

end Hex

/-! ## Digests -/

theorem Md5.length_digest (message : Bytes) : (Md5.digest message).length = 16 := rfl

theorem Sha256.length_digest (message : Bytes) : (Sha256.digest message).length = 32 := rfl

namespace DigestAlgorithm

theorem length_digestBytes (algorithm : DigestAlgorithm) (content : Bytes) :
    2 * (algorithm.digestBytes content).length = algorithm.hexLength := by
  cases algorithm with
  | md5 =>
    show 2 * (Md5.digest content).length = 32
    rw [Md5.length_digest]
  | sha256 =>
    show 2 * (Sha256.digest content).length = 64
    rw [Sha256.length_digest]

/-- A digest has the shape of a digest key. -/
theorem isDigest_digest (algorithm : DigestAlgorithm) (content : Bytes) :
    algorithm.isDigest (algorithm.digest content) = true := by
  unfold isDigest digest Hex.encode
  rw [String.toList_ofList, Hex.length_encodeChars, length_digestBytes, beq_self_eq_true,
    Bool.true_and, List.all_eq_true]
  exact fun c hc => Hex.isLowerDigit_of_mem_encodeChars hc

end DigestAlgorithm

end BlobVault
