import BlobVault.Proofs.KeyStrategy

/-!
# Annotated keys

The texts that carry a range, told by how they are written, and the bytes that the range covers.

1. `Text.Spells`: the numerals of a number; `plusDecimal?_eq_some_iff`: they are what is read as it.
2. `ByteRange.Annotates`: the texts that carry a key and two offsets;
   `splitKey_eq_some_iff`: they are what is split into the key and the range of the offsets.
3. `ByteRange.window_covering`: what the range covers of some content that reaches into it.
-/

namespace BlobVault

namespace Text

/-- The text is a numeral of the number: one ASCII digit or more, leading zeros included, and maybe
a plus sign in front. -/
def Spells (text : List Char) (n : Nat) : Prop :=
  ∃ digits, (text = digits ∨ text = '+' :: digits) ∧ digits ≠ [] ∧
    (∀ c ∈ digits, isDigit c = true) ∧ digitsValue digits = n

theorem decimal?_eq_some_iff {digits : List Char} {n : Nat} :
    decimal? digits = some n ↔
      digits ≠ [] ∧ (∀ c ∈ digits, isDigit c = true) ∧ digitsValue digits = n := by
  unfold decimal?
  rw [Option.ite_none_right_eq_some, List.all_eq_true, and_assoc, Option.some_inj]

theorem plusDecimal?_of_ne {text : List Char} (h : ∀ digits, text ≠ '+' :: digits) :
    plusDecimal? text = decimal? text := by
  unfold plusDecimal?
  split
  · exact absurd rfl (h _)
  · rfl

/-- A text is read as a number exactly if it is a numeral of it. -/
theorem plusDecimal?_eq_some_iff {text : List Char} {n : Nat} :
    plusDecimal? text = some n ↔ Spells text n := by
  constructor
  · intro h
    by_cases hplus : ∃ digits, text = '+' :: digits
    · obtain ⟨digits, rfl⟩ := hplus
      exact ⟨digits, .inr rfl, decimal?_eq_some_iff.1 h⟩
    · rw [not_exists] at hplus
      rw [plusDecimal?_of_ne hplus] at h
      exact ⟨text, .inl rfl, decimal?_eq_some_iff.1 h⟩
  · rintro ⟨digits, rfl | rfl, h⟩
    · rw [plusDecimal?_of_ne, decimal?_eq_some_iff]
      · exact h
      · rintro rest rfl
        exact absurd (h.2.1 '+' List.mem_cons_self) (by decide)
    · exact decimal?_eq_some_iff.2 h

/-- The separator does not stand in a numeral. -/
theorem Spells.rangeSeparator_notMem {text : List Char} {n : Nat} (h : Spells text n) :
    rangeSeparator ∉ text := by
  obtain ⟨digits, htext, -, hdigits, -⟩ := h
  have hsep : rangeSeparator ∉ digits := fun hmem =>
    absurd (hdigits rangeSeparator hmem) (by decide)
  rcases htext with rfl | rfl
  · exact hsep
  · rw [List.mem_cons, not_or]
    exact ⟨by decide, hsep⟩

theorem splitLast?_append {sep : Char} (before : List Char) {after : List Char} (h : sep ∉ after) :
    splitLast? sep (before ++ sep :: after) = some (before, after) := by
  induction before with
  | nil =>
    rw [List.nil_append]
    unfold splitLast?
    rw [splitLast?_eq_none h]
    exact if_pos rfl
  | cons c before ih =>
    rw [List.cons_append]
    unfold splitLast?
    rw [ih]

end Text

open Text (Spells)

namespace ByteRange

/-- The range of all offsets from one to another. -/
def covering (first last : Nat) : ByteRange := ⟨.ofNat first, .ofNat (last - first + 1)⟩

/-- The text is the key with two offsets after it, in whatever numerals, the first not behind the
last, and the last with a 64-bit offset behind it. -/
def Annotates (text key : String) (first last : Nat) : Prop :=
  ∃ x y, text.toList = key.toList ++ rangeSeparator :: (x ++ rangeSeparator :: y) ∧
    Spells x first ∧ Spells y last ∧ first ≤ last ∧ last < maxOffset

theorem readUInt64?_eq_some_iff {text : List Char} {n : UInt64} :
    Text.readUInt64? text = some n ↔ Spells text n.toNat := by
  unfold Text.readUInt64? Text.decimalBelow?
  rw [Option.map_eq_some_iff]
  constructor
  · rintro ⟨m, hm, rfl⟩
    rw [Option.filter_eq_some_iff, Text.plusDecimal?_eq_some_iff] at hm
    obtain ⟨hspells, hlt⟩ := hm
    rw [UInt64.toNat_ofNat_of_lt' (of_decide_eq_true hlt)]
    exact hspells
  · intro h
    refine ⟨n.toNat, ?_, UInt64.ofNat_toNat⟩
    rw [Option.filter_eq_some_iff, Text.plusDecimal?_eq_some_iff]
    exact ⟨h, decide_eq_true n.toNat_lt⟩

/-- Two texts stand for a range exactly if they are numerals of the offsets that it covers. -/
theorem ofTexts?_eq_some_iff {x y : List Char} {r : ByteRange} :
    ofTexts? x y = some r ↔ ∃ first last, Spells x first ∧ Spells y last ∧ first ≤ last ∧
      last < maxOffset ∧ r = covering first last := by
  unfold ofTexts?
  constructor
  · intro h
    obtain ⟨s, hs, h⟩ := Option.bind_eq_some_iff.1 h
    obtain ⟨e, he, h⟩ := Option.bind_eq_some_iff.1 h
    rw [Option.ite_none_right_eq_some] at h
    obtain ⟨⟨hmax, hle⟩, hr⟩ := h
    refine ⟨s.toNat, e.toNat, readUInt64?_eq_some_iff.1 hs, readUInt64?_eq_some_iff.1 he, hle, hmax,
      ?_⟩
    rw [← Option.some.inj hr]
    unfold covering
    rw [UInt64.ofNat_toNat]
  · rintro ⟨first, last, hx, hy, hle, hmax, rfl⟩
    have hlast : (UInt64.ofNat last).toNat = last :=
      UInt64.toNat_ofNat_of_lt' (hmax.trans (by decide))
    have hfirst : (UInt64.ofNat first).toNat = first :=
      UInt64.toNat_ofNat_of_lt' ((hle.trans_lt hmax).trans (by decide))
    rw [readUInt64?_eq_some_iff.2 (hfirst.symm ▸ hx), readUInt64?_eq_some_iff.2 (hlast.symm ▸ hy)]
    show (if _ ∧ _ then _ else _) = _
    rw [hlast, hfirst, if_pos ⟨hmax, hle⟩]
    rfl

/-- Where the last two separators of a text are known, so are its parts. -/
theorem ofKey?_append (base : List Char) {x y : List Char} (hx : rangeSeparator ∉ x)
    (hy : rangeSeparator ∉ y) :
    ofKey? (base ++ rangeSeparator :: (x ++ rangeSeparator :: y)) =
      if base = [] then none else (ofTexts? x y).map fun r => (base, r) := by
  have hlast : Text.splitLast? rangeSeparator
      (base ++ rangeSeparator :: (x ++ rangeSeparator :: y)) =
        some (base ++ rangeSeparator :: x, y) := by
    rw [← Text.splitLast?_append _ hy, List.append_assoc]
    rfl
  unfold ofKey?
  simp only [hlast, Text.splitLast?_append base hx, Option.bind_eq_bind, Option.bind_some]

theorem ofKey?_eq_some_iff {text base : List Char} {r : ByteRange} :
    ofKey? text = some (base, r) ↔ base ≠ [] ∧ ∃ x y,
      text = base ++ rangeSeparator :: (x ++ rangeSeparator :: y) ∧ ofTexts? x y = some r := by
  constructor
  · intro h
    unfold ofKey? at h
    obtain ⟨⟨front, y⟩, hfront, h⟩ := Option.bind_eq_some_iff.1 h
    obtain ⟨⟨base', x⟩, hbase, h⟩ := Option.bind_eq_some_iff.1 h
    rw [Option.ite_none_left_eq_some] at h
    obtain ⟨hne, h⟩ := h
    obtain ⟨_, hr, heq⟩ := Option.map_eq_some_iff.1 h
    obtain ⟨rfl, rfl⟩ := Prod.mk.inj heq
    refine ⟨hne, x, y, ?_, hr⟩
    rw [Text.eq_of_splitLast? hfront, Text.eq_of_splitLast? hbase, List.append_assoc]
    rfl
  · rintro ⟨hne, x, y, rfl, hr⟩
    -- numerals have no separators, so the last two of the text are those in front of the offsets
    obtain ⟨first, last, hx, hy, -⟩ := ofTexts?_eq_some_iff.1 hr
    rw [ofKey?_append base hx.rangeSeparator_notMem hy.rangeSeparator_notMem, if_neg hne, hr]
    rfl

/-- A text is split into a key and a range exactly if it is the key, which is not empty, with the
offsets that the range covers. -/
theorem splitKey_eq_some_iff {text key : String} {r : ByteRange} :
    splitKey text = (key, some r) ↔
      key ≠ "" ∧ ∃ first last, Annotates text key first last ∧ r = covering first last := by
  have hkey : splitKey text = (key, some r) ↔ ofKey? text.toList = some (key.toList, r) := by
    unfold splitKey
    cases ofKey? text.toList with
    | none => exact ⟨nofun, nofun⟩
    | some found =>
      obtain ⟨base, r'⟩ := found
      constructor
      · intro h
        obtain ⟨rfl, hr⟩ := Prod.mk.inj (show (String.ofList base, some r') = (key, some r) from h)
        rw [String.toList_ofList, Option.some.inj hr]
      · intro h
        obtain ⟨rfl, rfl⟩ := Prod.mk.inj (Option.some.inj h)
        exact congrArg (·, some r') String.ofList_toList
  rw [hkey, ofKey?_eq_some_iff, Ne, String.toList_eq_nil_iff]
  refine and_congr_right fun _ => ?_
  constructor
  · rintro ⟨x, y, htext, hr⟩
    obtain ⟨first, last, hx, hy, hle, hmax, rfl⟩ := ofTexts?_eq_some_iff.1 hr
    exact ⟨first, last, ⟨x, y, htext, hx, hy, hle, hmax⟩, rfl⟩
  · rintro ⟨first, last, ⟨x, y, htext, hx, hy, hle, hmax⟩, rfl⟩
    exact ⟨x, y, htext, ofTexts?_eq_some_iff.2 ⟨first, last, hx, hy, hle, hmax, rfl⟩⟩

theorem toNat_saturatingAdd (a b : UInt64) :
    (saturatingAdd a b).toNat = min (a.toNat + b.toNat) maxOffset := by
  have hsize : maxOffset + 1 = UInt64.size := rfl
  exact UInt64.toNat_ofNat_of_lt' (by omega)

theorem toNat_saturatingSub_one (a : UInt64) : (saturatingSub a 1).toNat = a.toNat - 1 :=
  UInt64.toNat_ofNat_of_lt' (Nat.sub_lt_of_lt a.toNat_lt)

theorem toNat_lastOffset (r : ByteRange) :
    r.lastOffset.toNat = min (r.start.toNat + (r.length.toNat - 1)) maxOffset := by
  unfold lastOffset
  rw [toNat_saturatingAdd, toNat_saturatingSub_one]

theorem toNat_stop (r : ByteRange) :
    r.stop.toNat = min (r.start.toNat + r.length.toNat) maxOffset := toNat_saturatingAdd _ _

/-- A range that covers offsets below the largest one has them as its first and its last. -/
theorem toNat_covering {first last : Nat} (hle : first ≤ last) (hmax : last < maxOffset) :
    (covering first last).start.toNat = first ∧
      (covering first last).length.toNat = last - first + 1 ∧
      (covering first last).lastOffset.toNat = last ∧
      (covering first last).stop.toNat = last + 1 := by
  have hsize : maxOffset + 1 = UInt64.size := rfl
  have hstart : (covering first last).start.toNat = first :=
    UInt64.toNat_ofNat_of_lt' (by omega)
  have hlength : (covering first last).length.toNat = last - first + 1 :=
    UInt64.toNat_ofNat_of_lt' (by omega)
  rw [toNat_lastOffset, toNat_stop, hstart, hlength]
  omega

/-- What a range covers of some content: the bytes from the first offset to the last one, or to the
end of the content if that comes first. -/
theorem window_covering {first last : Nat} (hle : first ≤ last) (hmax : last < maxOffset)
    {content : Bytes} (hinside : first < content.length) :
    (covering first last).window content =
      content.extract first (min last (content.length - 1) + 1) := by
  obtain ⟨hstart, -, -, hstop⟩ := toNat_covering hle hmax
  unfold window
  rw [hstart, hstop, List.extract_eq_take_drop, List.drop_take]
  rcases Nat.lt_or_ge last content.length with hlast | hlast
  · rw [Nat.min_eq_left (by omega)]
  · have hrest : (content.drop first).length = content.length - first := List.length_drop
    rw [Nat.min_eq_right (by omega), List.take_of_length_le (by omega),
      List.take_of_length_le (by omega)]

end ByteRange

end BlobVault
