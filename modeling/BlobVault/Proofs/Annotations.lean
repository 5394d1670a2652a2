import BlobVault.Proofs.Ranges

/-!
# Annotating and splitting

Every range can be written after every key, and the split of a text is told by how the text is
written. The two are inverse to each other as far as the offsets of a range go: the text has the
last offset, which a range without bytes does not have and which stops at the largest offset.

1. `Text.spells_decimalChars`: the numeral that is written for a number is one of it.
2. `ByteRange.toNat_covering`: nothing stops at the largest offset in what a split gives.
3. `ByteRange.splitKey_annotate`: the split of an annotated key.
4. `ByteRange.splitKey_grammar`: the split of any text.
5. `ByteRange.splitKey_annotate_iff`: the keys and ranges that read back.
-/

namespace BlobVault

namespace Text

/-- The numeral that is written for a number is a numeral of it. -/
theorem spells_decimalChars (n : Nat) : Spells (decimalChars n) n := by
  refine ⟨decimalChars n, .inl rfl, Nat.toDigits_ne_nil, fun c hc => ?_, ?_⟩
  · have hdigit := Nat.isDigit_of_mem_toDigits (by decide) (by decide) hc
    unfold Char.isDigit at hdigit
    exact hdigit
  · exact Nat.ofDigitChars_toDigits (by decide) (by decide)

end Text

open Text (Spells decimalChars spells_decimalChars)

namespace ByteRange

/-! ## Offsets -/

/-- A range that has a last offset covers the offsets up to it. -/
theorem eq_covering {r : ByteRange} (hlength : 1 ≤ r.length.toNat) :
    r = covering r.start.toNat (r.start.toNat + (r.length.toNat - 1)) := by
  unfold covering
  rw [Nat.add_sub_cancel_left, Nat.sub_add_cancel hlength, UInt64.ofNat_toNat, UInt64.ofNat_toNat]

/-! ## Splitting an annotated key -/

theorem readUInt64?_decimalChars (n : UInt64) :
    Text.readUInt64? (decimalChars n.toNat) = some n :=
  readUInt64?_eq_some_iff.2 (spells_decimalChars _)

theorem start_le_lastOffset (r : ByteRange) : r.start.toNat ≤ r.lastOffset.toNat := by
  rw [toNat_lastOffset]
  exact Nat.le_min.2 ⟨Nat.le_add_right _ _, Nat.le_sub_one_of_lt r.start.toNat_lt⟩

/-- An annotated key is split again where the key is not empty and the last offset has one behind
it. What comes out covers the offsets in the text. -/
theorem splitKey_annotate (key : String) (r : ByteRange) :
    splitKey (r.annotate key) =
      if key ≠ "" ∧ r.lastOffset.toNat < maxOffset then
        (key, some (covering r.start.toNat r.lastOffset.toNat))
      else (r.annotate key, none) := by
  have htexts : ofTexts? (decimalChars r.start.toNat) (decimalChars r.lastOffset.toNat) =
      if r.lastOffset.toNat < maxOffset then
        some (covering r.start.toNat r.lastOffset.toNat) else none := by
    unfold ofTexts? covering
    simp only [readUInt64?_decimalChars, Option.bind_eq_bind, Option.bind_some,
      start_le_lastOffset, and_true, UInt64.ofNat_toNat]
  have hkey : ofKey? (r.annotate key).toList =
      if key = "" then none
      else (ofTexts? (decimalChars r.start.toNat) (decimalChars r.lastOffset.toNat)).map
        fun range => (key.toList, range) := by
    unfold annotate
    rw [String.toList_ofList, ofKey?_append _ (spells_decimalChars _).rangeSeparator_notMem
      (spells_decimalChars _).rangeSeparator_notMem]
    simp only [String.toList_eq_nil_iff]
  unfold splitKey
  rw [hkey, htexts]
  by_cases hne : key = ""
  · rw [if_pos hne, if_neg fun h => h.1 hne]
  · rw [if_neg hne]
    by_cases hmax : r.lastOffset.toNat < maxOffset
    · rw [if_pos hmax, if_pos ⟨hne, hmax⟩]
      exact congrArg (·, some _) String.ofList_toList
    · rw [if_neg hmax, if_neg fun h => hmax h.2]
      rfl

/-- Within the offsets a key and a range read back. -/
theorem splitKey_annotate_of_le {key : String} {r : ByteRange} (hkey : key ≠ "")
    (hlength : 1 ≤ r.length.toNat) (hmax : r.start.toNat + r.length.toNat ≤ maxOffset) :
    splitKey (r.annotate key) = (key, some r) := by
  have hlast : r.lastOffset.toNat = r.start.toNat + (r.length.toNat - 1) := by
    rw [toNat_lastOffset]
    omega
  rw [splitKey_annotate, if_pos ⟨hkey, by omega⟩, hlast, ← eq_covering hlength]

/-- What a split gives has a byte, and an offset behind its last one. -/
theorem length_of_splitKey {text key : String} {r : ByteRange}
    (h : splitKey text = (key, some r)) :
    key ≠ "" ∧ 1 ≤ r.length.toNat ∧ r.start.toNat + r.length.toNat ≤ maxOffset := by
  obtain ⟨hkey, first, last, ⟨x, y, -, -, -, hle, hmax⟩, rfl⟩ := splitKey_eq_some_iff.1 h
  obtain ⟨hstart, hlength, -⟩ := toNat_covering hle hmax
  rw [hstart, hlength]
  exact ⟨hkey, by omega, by omega⟩

/-! ## What is split, and what reads back -/

theorem splitKey_eq_none_iff {text : String} :
    splitKey text = (text, none) ↔ (splitKey text).2 = none := by
  unfold splitKey
  cases ofKey? text.toList with
  | none => exact ⟨fun _ => rfl, fun _ => rfl⟩
  | some found => exact ⟨nofun, nofun⟩

theorem isSome_splitKey_iff {text : String} :
    (splitKey text).2.isSome ↔ ∃ key first last, key ≠ "" ∧ Annotates text key first last := by
  rw [Option.isSome_iff_exists]
  constructor
  · rintro ⟨r, hr⟩
    obtain ⟨hkey, first, last, htext, -⟩ :=
      splitKey_eq_some_iff.1 (Prod.ext rfl hr : splitKey text = ((splitKey text).1, some r))
    exact ⟨_, first, last, hkey, htext⟩
  · rintro ⟨key, first, last, hkey, htext⟩
    exact ⟨_, congrArg Prod.snd (splitKey_eq_some_iff.2 ⟨hkey, first, last, htext, rfl⟩)⟩

/-- **The texts that are split.** A text is split exactly if it is a key, which is not empty, with
two offsets after it, in whatever numerals, the first not behind the last and the last below the
largest offset. Then the key comes out, and the range that starts at the first and ends with the
last; it stops at an offset still, nothing about it is cut off there, and what is written for it
after the key is split the same. Any other text is left as it is. -/
theorem splitKey_grammar (text : String) :
    ((splitKey text).2.isSome ↔
      ∃ key first last, key ≠ "" ∧ Annotates text key first last) ∧
    (∀ key first last, key ≠ "" → Annotates text key first last →
      ∃ r, splitKey text = (key, some r) ∧
        r.start.toNat = first ∧ r.length.toNat = last - first + 1 ∧
        r.start.toNat + r.length.toNat ≤ maxOffset ∧
        r.lastOffset.toNat = last ∧ r.stop.toNat = r.start.toNat + r.length.toNat ∧
        splitKey (r.annotate key) = (key, some r)) ∧
    ((¬ ∃ key first last, key ≠ "" ∧ Annotates text key first last) →
      splitKey text = (text, none)) := by
  refine ⟨isSome_splitKey_iff, fun key first last hkey htext => ?_, fun hnone => ?_⟩
  · have hsplit : splitKey text = (key, some (covering first last)) :=
      splitKey_eq_some_iff.2 ⟨hkey, first, last, htext, rfl⟩
    obtain ⟨-, hbyte, hmax⟩ := length_of_splitKey hsplit
    obtain ⟨x, y, -, -, -, hle, hlast⟩ := htext
    obtain ⟨hstart, hlength, hlastOffset, hstop⟩ := toNat_covering hle hlast
    refine ⟨covering first last, hsplit, hstart, hlength, hmax, hlastOffset, ?_,
      splitKey_annotate_of_le hkey hbyte hmax⟩
    rw [hstop, hstart, hlength]
    omega
  · rw [splitKey_eq_none_iff, ← Option.not_isSome_iff_eq_none, isSome_splitKey_iff]
    exact hnone

/-- The key may have separators and digits of its own, and the last offset may be the last that has
one behind it. -/
theorem splitKey_grammar_at_limit :
    ∃ r, splitKey "k;1;2;+007;18446744073709551614" = ("k;1;2", some r) ∧
      r.start.toNat = 7 ∧ r.stop.toNat = maxOffset := by
  have htext : Annotates "k;1;2;+007;18446744073709551614" "k;1;2" 7 18446744073709551614 :=
    ⟨"+007".toList, "18446744073709551614".toList, by decide,
      Text.plusDecimal?_eq_some_iff.1 (by decide), Text.plusDecimal?_eq_some_iff.1 (by decide),
      by decide, by decide⟩
  obtain ⟨r, hsplit, hstart, hlength, -, -, hstop, -⟩ :=
    (splitKey_grammar _).2.1 "k;1;2" 7 18446744073709551614 (by decide) htext
  exact ⟨r, hsplit, hstart, by rw [hstop, hstart, hlength]; rfl⟩

/-- A range without bytes that starts below the largest offset reads back with the byte at its
start. -/
theorem splitKey_annotate_empty {key : String} {r : ByteRange} (hkey : key ≠ "")
    (hlength : r.length.toNat = 0) (hstart : r.start.toNat < maxOffset) :
    splitKey (r.annotate key) = (key, some ⟨r.start, 1⟩) := by
  have hlast : r.lastOffset.toNat = r.start.toNat := by
    rw [toNat_lastOffset, hlength]
    omega
  rw [splitKey_annotate, hlast, if_pos ⟨hkey, hstart⟩]
  unfold covering
  rw [Nat.sub_self, UInt64.ofNat_toNat]
  rfl

/-- Nothing is split off an empty key, and no range that would pass the largest offset. -/
theorem splitKey_annotate_of_lt {key : String} {r : ByteRange}
    (hmax : key = "" ∨ maxOffset < r.start.toNat + max r.length.toNat 1) :
    splitKey (r.annotate key) = (r.annotate key, none) := by
  rw [splitKey_annotate, if_neg]
  rintro ⟨hkey, hlast⟩
  rw [toNat_lastOffset] at hlast
  have := hmax.resolve_left hkey
  omega

/-- **The ranges that read back.** An annotated key is split into the key and the range exactly if
the key is not empty, the range has a byte, and it stops at an offset. Otherwise no text is split
into the two, and the annotated key is not split at all, or into the key and the byte at the start
of a range that had none. -/
theorem splitKey_annotate_iff (key : String) (r : ByteRange) :
    (splitKey (r.annotate key) = (key, some r) ↔
      key ≠ "" ∧ 1 ≤ r.length.toNat ∧ r.start.toNat + r.length.toNat ≤ maxOffset) ∧
    (¬ (key ≠ "" ∧ 1 ≤ r.length.toNat ∧ r.start.toNat + r.length.toNat ≤ maxOffset) →
      (∀ text, splitKey text ≠ (key, some r)) ∧
        splitKey (r.annotate key) =
          if key ≠ "" ∧ r.length.toNat = 0 ∧ r.start.toNat < maxOffset then
            (key, some ⟨r.start, 1⟩)
          else (r.annotate key, none)) := by
  refine ⟨⟨length_of_splitKey, fun h => splitKey_annotate_of_le h.1 h.2.1 h.2.2⟩,
    fun hout => ⟨fun text h => hout (length_of_splitKey h), ?_⟩⟩
  split
  · rename_i hempty
    exact splitKey_annotate_empty hempty.1 hempty.2.1 hempty.2.2
  · rename_i hrest
    refine splitKey_annotate_of_lt (or_iff_not_imp_left.2 fun hkey => ?_)
    have hshort := not_and.1 hout hkey
    have hlong := not_and.1 hrest hkey
    omega

end ByteRange

end BlobVault
