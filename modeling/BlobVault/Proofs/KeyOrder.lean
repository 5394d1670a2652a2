import BlobVault.Bytes
import Mathlib

/-!
# The order of keys

Texts are in the order of their characters, and UTF-8 keeps that order: texts are in the order of
their bytes (`Bytes.ofText_lt`). One character decides, so it is enough that the bytes of a smaller
character are smaller whatever follows them (`utf8EncodeChar_lt`).
-/

namespace BlobVault

/-! ## One character -/

/-- Digits to the base of 64 for any code point. -/
theorem exists_sextets {v : Nat} (hv : v < 0x110000) :
    ∃ a b c d, a < 5 ∧ b < 64 ∧ c < 64 ∧ d < 64 ∧ v = 262144 * a + 4096 * b + 64 * c + d :=
  ⟨v / 262144, v / 4096 % 64, v / 64 % 64, v % 64, by omega, by omega, by omega, by omega,
    by omega⟩

/-- The four bytes of a character beyond the basic plane, from its digits. -/
theorem utf8EncodeChar_of_sextets {k : Char} {a b c d : Nat} (ha : a < 5) (hb : b < 64)
    (hc : c < 64) (hd : d < 64) (hk : k.val.toNat = 262144 * a + 4096 * b + 64 * c + d)
    (hlong : 0xffff < k.val.toNat) :
    String.utf8EncodeChar k =
      [.ofNat (a + 0xf0), .ofNat (b + 0x80), .ofNat (c + 0x80), .ofNat (d + 0x80)] := by
  have h1 : k.val.toNat / 262144 % 8 = a := by omega
  have h2 : k.val.toNat / 4096 % 64 = b := by omega
  have h3 : k.val.toNat / 64 % 64 = c := by omega
  have h4 : k.val.toNat % 64 = d := by omega
  unfold String.utf8EncodeChar
  dsimp only
  rw [if_neg (by omega), if_neg (by omega), if_neg (by omega), h1, h2, h3, h4]

/-- The bytes of a smaller character are smaller, whatever follows them. -/
theorem utf8EncodeChar_lt {c d : Char} (h : c < d) (x y : Bytes) :
    String.utf8EncodeChar c ++ x < String.utf8EncodeChar d ++ y := by
  have hlt : c.val.toNat < d.val.toNat := h
  have hd : d.val.toNat < 0x110000 := by
    have hvalid := d.valid
    unfold UInt32.isValidChar Nat.isValidChar at hvalid
    omega
  by_cases hlong : 0xffff < c.val.toNat
  · -- four bytes each: the first digit in which they differ decides
    obtain ⟨a₁, a₂, a₃, a₄, ha₁, ha₂, ha₃, ha₄, hc⟩ := exists_sextets (hlt.trans hd)
    obtain ⟨b₁, b₂, b₃, b₄, hb₁, hb₂, hb₃, hb₄, hd'⟩ := exists_sextets hd
    rw [utf8EncodeChar_of_sextets ha₁ ha₂ ha₃ ha₄ hc hlong,
      utf8EncodeChar_of_sextets hb₁ hb₂ hb₃ hb₄ hd' (hlong.trans hlt)]
    simp only [List.cons_append, List.nil_append, List.cons_lt_cons_iff, UInt8.lt_iff_toNat_lt,
      ← UInt8.toNat_inj, UInt8.toNat_ofNat']
    omega
  · unfold String.utf8EncodeChar
    dsimp only
    split_ifs <;>
      simp only [List.cons_append, List.nil_append, List.cons_lt_cons_iff, UInt8.lt_iff_toNat_lt,
        ← UInt8.toNat_inj, UInt8.toNat_ofNat'] <;> omega

/-! ## Texts -/

theorem flatMap_utf8EncodeChar_lt {a b : List Char} (h : a < b) :
    a.flatMap String.utf8EncodeChar < b.flatMap String.utf8EncodeChar := by
  induction a generalizing b with
  | nil =>
    cases b with
    | nil => exact absurd h (lt_irrefl _)
    | cons d b =>
      obtain ⟨byte, bytes, hbytes⟩ :=
        List.exists_cons_of_ne_nil (String.utf8EncodeChar_ne_nil (c := d))
      rw [List.flatMap_nil, List.flatMap_cons, hbytes, List.cons_append]
      exact List.nil_lt_cons _ _
  | cons c a ih =>
    cases b with
    | nil => exact absurd h (List.not_lt_nil _)
    | cons d b =>
      rw [List.flatMap_cons, List.flatMap_cons]
      rcases List.cons_lt_cons_iff.1 h with hlt | ⟨rfl, hlt⟩
      · exact utf8EncodeChar_lt hlt _ _
      · exact List.append_left_lt (ih hlt)

theorem Bytes.ofText_eq (s : String) :
    Bytes.ofText s = s.toList.flatMap String.utf8EncodeChar := by
  unfold Bytes.ofText
  rw [String.toUTF8_eq_toByteArray, ← String.utf8Encode_toList]
  unfold List.utf8Encode
  rw [List.data_toByteArray]

/-- **Byte order**: texts are in the order of their bytes. -/
theorem Bytes.ofText_lt {a b : String} (h : a < b) : Bytes.ofText a < Bytes.ofText b := by
  rw [ofText_eq, ofText_eq]
  exact flatMap_utf8EncodeChar_lt (String.lt_iff_toList_lt.1 h)

end BlobVault
