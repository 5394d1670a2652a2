import BlobVault.ObjectPath
import Mathlib

/-!
# Segments of object paths

`parts` cuts a text at its delimiters (`parts_append_delimiter`, `parts_of_plain`), and `join` puts
segments together again (`join_append_singleton`); each undoes the other (`parts_join`). The
encoding of segments is injective: reading the percent signs back gives the UTF-8 form of the
segment (`unescape_encodeSegment`), which tells texts apart. It makes a segment longer unless the
segment stands for itself (`encodeSegment_eq_or`), and it makes no delimiters, so the path of a text
is a run of nonempty segments (`isProper_ofChars`).
-/

namespace BlobVault

/-- The UTF-8 forms of distinct texts are distinct. -/
theorem flatMap_utf8EncodeChar_inj {a b : List Char}
    (h : a.flatMap String.utf8EncodeChar = b.flatMap String.utf8EncodeChar) : a = b := by
  have hbytes : a.utf8Encode = b.utf8Encode := by
    unfold List.utf8Encode
    rw [h]
  exact String.ofList_injective (String.toByteArray_inj.1 hbytes)

namespace ObjectPath

/-! ## Cutting and joining -/

theorem pieces_ne_nil (sep : Char) (a : List Char) : Text.pieces sep a ≠ [] := by
  cases a with
  | nil => exact List.cons_ne_nil _ _
  | cons c a =>
    rw [Text.pieces]
    split
    · exact List.cons_ne_nil _ _
    · split <;> exact List.cons_ne_nil _ _

theorem pieces_append (sep : Char) (a b : List Char) :
    Text.pieces sep (a ++ sep :: b) = Text.pieces sep a ++ Text.pieces sep b := by
  induction a with
  | nil =>
    rw [List.nil_append, Text.pieces.eq_2, if_pos rfl]
    rfl
  | cons c a ih =>
    rw [List.cons_append, Text.pieces, Text.pieces, ih]
    by_cases h : c = sep
    · rw [if_pos h, if_pos h, List.cons_append]
    · rw [if_neg h, if_neg h]
      have hne := pieces_ne_nil sep a
      cases hp : Text.pieces sep a with
      | nil => exact absurd hp hne
      | cons p ps => rfl

theorem pieces_of_notMem {sep : Char} {a : List Char} (h : sep ∉ a) :
    Text.pieces sep a = [a] := by
  induction a with
  | nil => rfl
  | cons c a ih =>
    rw [List.mem_cons, not_or] at h
    rw [Text.pieces, if_neg (Ne.symm h.1), ih h.2]

/-- A delimiter ends a part. -/
theorem parts_append_delimiter (a b : List Char) :
    parts (a ++ pathDelimiter :: b) = parts a ++ parts b := by
  unfold parts
  rw [pieces_append, List.filter_append]

@[simp] theorem parts_nil : parts [] = [] := rfl

theorem parts_of_plain {a : List Char} (hne : a ≠ []) (h : pathDelimiter ∉ a) : parts a = [a] := by
  unfold parts
  rw [pieces_of_notMem h]
  simp [hne]

theorem parts_cons_ne_nil {c : Char} (h : c ≠ pathDelimiter) (text : List Char) :
    parts (c :: text) ≠ [] := by
  unfold parts
  rw [Text.pieces, if_neg h]
  have hne := pieces_ne_nil pathDelimiter text
  cases hp : Text.pieces pathDelimiter text with
  | nil => exact absurd hp hne
  | cons p ps => simp

/-- Only delimiters make no part. -/
theorem parts_eq_nil_iff {text : List Char} :
    parts text = [] ↔ ∀ c ∈ text, c = pathDelimiter := by
  induction text with
  | nil => exact iff_of_true rfl nofun
  | cons c text ih =>
    rw [List.forall_mem_cons]
    by_cases hc : c = pathDelimiter
    · subst hc
      rw [show parts (pathDelimiter :: text) = parts text from parts_append_delimiter [] text, ih,
        and_iff_right rfl]
    · exact iff_of_false (parts_cons_ne_nil hc text) fun h => hc h.1

/-- Delimiters at the end add no part. -/
theorem parts_append_delimiters {text delimiters : List Char}
    (h : ∀ c ∈ delimiters, c = pathDelimiter) : parts (text ++ delimiters) = parts text := by
  cases delimiters with
  | nil => rw [List.append_nil]
  | cons c rest =>
    obtain ⟨rfl, hrest⟩ := List.forall_mem_cons.1 h
    rw [parts_append_delimiter, parts_eq_nil_iff.2 hrest, List.append_nil]

theorem delimiter_notMem_pieces {sep : Char} {a piece : List Char}
    (h : piece ∈ Text.pieces sep a) : sep ∉ piece := by
  induction a generalizing piece with
  | nil =>
    rw [List.mem_singleton.1 h]
    exact List.not_mem_nil
  | cons c a ih =>
    rw [Text.pieces] at h
    split at h
    · rcases List.mem_cons.1 h with rfl | h
      · exact List.not_mem_nil
      · exact ih h
    · rename_i hc
      cases hp : Text.pieces sep a with
      | nil => exact absurd hp (pieces_ne_nil sep a)
      | cons p ps =>
        rw [hp] at h ih
        rcases List.mem_cons.1 h with rfl | h
        · rw [List.mem_cons, not_or]
          exact ⟨Ne.symm hc, ih List.mem_cons_self⟩
        · exact ih (List.mem_cons_of_mem _ h)

/-- The parts of a text are not empty and hold no delimiter. -/
theorem plain_of_mem_parts {text part : List Char} (h : part ∈ parts text) :
    part ≠ [] ∧ pathDelimiter ∉ part := by
  unfold parts at h
  rw [List.mem_filter, decide_eq_true_eq] at h
  exact ⟨h.2, delimiter_notMem_pieces h.1⟩

/-- Closed segments are the first parts of a text that begins with them. -/
theorem parts_flatMap_append {segments : List (List Char)}
    (h : ∀ s ∈ segments, s ≠ [] ∧ pathDelimiter ∉ s) (rest : List Char) :
    parts (segments.flatMap (· ++ [pathDelimiter]) ++ rest) = segments ++ parts rest := by
  induction segments with
  | nil => rfl
  | cons s segments ih =>
    obtain ⟨hne, hd⟩ := h s List.mem_cons_self
    rw [List.flatMap_cons, List.append_assoc, List.append_assoc, List.singleton_append,
      parts_append_delimiter, parts_of_plain hne hd, ih fun t ht => h t (List.mem_cons_of_mem _ ht)]
    rfl

theorem join_append_singleton (segments : List (List Char)) (last : List Char) :
    join (segments ++ [last]) = segments.flatMap (· ++ [pathDelimiter]) ++ last := by
  induction segments with
  | nil => rfl
  | cons s segments ih =>
    have hjoin : join (s :: (segments ++ [last])) =
        s ++ pathDelimiter :: join (segments ++ [last]) := by
      cases segments <;> rfl
    rw [List.cons_append, hjoin, ih]
    simp

theorem flatMap_delimiter_eq_join {segments : List (List Char)} (h : segments ≠ []) :
    segments.flatMap (· ++ [pathDelimiter]) = join segments ++ [pathDelimiter] := by
  obtain ⟨front, last, rfl⟩ := (List.eq_nil_or_concat segments).resolve_left h
  rw [List.concat_eq_append, join_append_singleton]
  simp

/-- One delimiter stands between the one segments and the others. -/
theorem join_append {front back : List (List Char)} (hfront : front ≠ []) (hback : back ≠ []) :
    join (front ++ back) = join front ++ pathDelimiter :: join back := by
  obtain ⟨before, last, rfl⟩ := (List.eq_nil_or_concat back).resolve_left hback
  rw [List.concat_eq_append, ← List.append_assoc, join_append_singleton, join_append_singleton,
    List.flatMap_append, flatMap_delimiter_eq_join hfront]
  simp

/-- Joined segments fall apart into themselves. -/
theorem parts_join {segments : List (List Char)} (h : ∀ s ∈ segments, s ≠ [] ∧ pathDelimiter ∉ s) :
    parts (join segments) = segments := by
  rcases List.eq_nil_or_concat segments with rfl | ⟨front, last, rfl⟩
  · rfl
  · obtain ⟨hne, hd⟩ := h last (by simp)
    rw [List.concat_eq_append] at h ⊢
    rw [join_append_singleton, parts_flatMap_append fun s hs => h s (List.mem_append_left _ hs),
      parts_of_plain hne hd]

/-! ## Reading the encoding back -/

/-- The value of a capital digit. -/
def upperValue (c : Char) : Nat := if c.toNat < 58 then c.toNat - 48 else c.toNat - 55

/-- The bytes that an encoded text stands for. -/
def unescape : List Char → List UInt8
  | [] => []
  | [c] => [UInt8.ofNat c.toNat]
  | [c, d] => [UInt8.ofNat c.toNat, UInt8.ofNat d.toNat]
  | c :: a :: b :: r =>
    if c = '%' then UInt8.ofNat (16 * upperValue a + upperValue b) :: unescape r
    else UInt8.ofNat c.toNat :: unescape (a :: b :: r)

theorem unescape_cons {c : Char} (h : c ≠ '%') (r : List Char) :
    unescape (c :: r) = UInt8.ofNat c.toNat :: unescape r := by
  match r with
  | [] => rfl
  | [_] => rfl
  | a :: b :: r => rw [unescape, if_neg h]

theorem upperValue_upperDigit : ∀ n < 16, upperValue (upperDigit n) = n := by decide

theorem unescape_percent (b : UInt8) (r : List Char) :
    unescape (percent b ++ r) = b :: unescape r := by
  have hb := b.toNat_lt
  show unescape ('%' :: upperDigit (b.toNat / 16) :: upperDigit (b.toNat % 16) :: r) = _
  rw [unescape, if_pos rfl, upperValue_upperDigit _ (by omega), upperValue_upperDigit _ (by omega),
    Nat.div_add_mod, UInt8.ofNat_toNat]

theorem unescape_flatMap_percent (bytes : List UInt8) (r : List Char) :
    unescape (bytes.flatMap percent ++ r) = bytes ++ unescape r := by
  induction bytes with
  | nil => rfl
  | cons b bytes ih =>
    rw [List.flatMap_cons, List.append_assoc, unescape_percent, ih, List.cons_append]

theorem utf8EncodeChar_of_isSafe {c : Char} (h : isSafe c = true) :
    String.utf8EncodeChar c = [UInt8.ofNat c.toNat] := by
  simp only [isSafe, Bool.and_eq_true, decide_eq_true_eq] at h
  have hval : c.val.toNat ≤ 0x7F := Nat.le_of_lt h.1.2
  unfold String.utf8EncodeChar
  exact if_pos hval

theorem unescape_encodeChar (c : Char) (r : List Char) :
    unescape (encodeChar c ++ r) = String.utf8EncodeChar c ++ unescape r := by
  unfold encodeChar
  split
  · rename_i h
    have hne : c ≠ '%' := by
      rintro rfl
      exact absurd h (by decide)
    rw [List.singleton_append, unescape_cons hne, utf8EncodeChar_of_isSafe h]
    rfl
  · exact unescape_flatMap_percent _ r

theorem unescape_flatMap_encodeChar (segment : List Char) :
    unescape (segment.flatMap encodeChar) = segment.flatMap String.utf8EncodeChar := by
  induction segment with
  | nil => rfl
  | cons c segment ih => rw [List.flatMap_cons, unescape_encodeChar, ih, List.flatMap_cons]

/-- The encoded form of a segment stands for its UTF-8 form. -/
theorem unescape_encodeSegment (segment : List Char) :
    unescape (encodeSegment segment) = segment.flatMap String.utf8EncodeChar := by
  unfold encodeSegment
  by_cases hdot : segment = ['.']
  · rw [if_pos hdot, hdot]
    decide
  rw [if_neg hdot]
  by_cases hdots : segment = ['.', '.']
  · rw [if_pos hdots, hdots]
    decide
  rw [if_neg hdots]
  exact unescape_flatMap_encodeChar segment

theorem encodeSegment_injective {a b : List Char} (h : encodeSegment a = encodeSegment b) :
    a = b := by
  have hbytes := congrArg unescape h
  rw [unescape_encodeSegment, unescape_encodeSegment] at hbytes
  exact flatMap_utf8EncodeChar_inj hbytes

/-! ## Proper paths -/

theorem encodeSegment_ne_nil {segment : List Char} (h : segment ≠ []) :
    encodeSegment segment ≠ [] := fun hnil =>
  h (encodeSegment_injective (hnil.trans (show [] = encodeSegment [] from rfl)))

theorem upperDigit_ne_delimiter : ∀ n < 16, upperDigit n ≠ pathDelimiter := by decide

theorem delimiter_notMem_encodeChar {c : Char} (h : c ≠ pathDelimiter) :
    pathDelimiter ∉ encodeChar c := by
  unfold encodeChar
  split
  · rw [List.mem_singleton]
    exact Ne.symm h
  · intro hmem
    obtain ⟨b, -, hb⟩ := List.mem_flatMap.1 hmem
    have hlt := b.toNat_lt
    simp only [percent, List.mem_cons, List.not_mem_nil, or_false] at hb
    rcases hb with hb | hb | hb
    · exact absurd hb (by decide)
    · exact upperDigit_ne_delimiter _ (by omega) hb.symm
    · exact upperDigit_ne_delimiter _ (by omega) hb.symm

theorem delimiter_notMem_encodeSegment {segment : List Char} (h : pathDelimiter ∉ segment) :
    pathDelimiter ∉ encodeSegment segment := by
  unfold encodeSegment
  split
  · decide
  split
  · decide
  intro hmem
  obtain ⟨c, hc, hmem⟩ := List.mem_flatMap.1 hmem
  refine delimiter_notMem_encodeChar ?_ hmem
  rintro rfl
  exact h hc

/-! ## Segments that stand for themselves -/

theorem encodeChar_of_isSafe {c : Char} (h : isSafe c = true) : encodeChar c = [c] := if_pos h

theorem length_encodeChar {c : Char} (h : ¬ isSafe c = true) : 1 < (encodeChar c).length := by
  obtain ⟨b, bytes, hbytes⟩ := List.exists_cons_of_ne_nil (String.utf8EncodeChar_ne_nil (c := c))
  have hpercent : (percent b).length = 3 := rfl
  unfold encodeChar
  rw [if_neg h, hbytes, List.flatMap_cons, List.length_append]
  omega

/-- Characters stand for themselves if all are safe, or else their encoded form is longer. -/
theorem flatMap_encodeChar_eq_or (segment : List Char) :
    ((∀ c ∈ segment, isSafe c = true) ∧ segment.flatMap encodeChar = segment) ∨
      ((¬ ∀ c ∈ segment, isSafe c = true) ∧
        segment.length < (segment.flatMap encodeChar).length) := by
  induction segment with
  | nil => exact .inl ⟨nofun, rfl⟩
  | cons c segment ih =>
    rw [List.flatMap_cons, List.length_append, List.length_cons, List.forall_mem_cons]
    by_cases hc : isSafe c = true
    · rw [encodeChar_of_isSafe hc, List.length_singleton]
      rcases ih with ⟨hsafe, hsame⟩ | ⟨hsafe, hlt⟩
      · exact .inl ⟨⟨hc, hsafe⟩, congrArg (c :: ·) hsame⟩
      · exact .inr ⟨fun h => hsafe h.2, by omega⟩
    · have hlong := length_encodeChar hc
      refine .inr ⟨fun h => hc h.1, ?_⟩
      rcases ih with ⟨-, hsame⟩ | ⟨-, hlt⟩
      · rw [hsame]
        omega
      · omega

/-- A segment stands for itself if all its characters are safe and it is not made of one or two
dots, or else its encoded form is longer. -/
theorem encodeSegment_eq_or (segment : List Char) :
    ((segment ≠ ['.'] ∧ segment ≠ ['.', '.'] ∧ ∀ c ∈ segment, isSafe c = true) ∧
        encodeSegment segment = segment) ∨
      ((¬ (segment ≠ ['.'] ∧ segment ≠ ['.', '.'] ∧ ∀ c ∈ segment, isSafe c = true)) ∧
        segment.length < (encodeSegment segment).length) := by
  by_cases hdot : segment = ['.']
  · subst hdot
    exact .inr ⟨fun h => h.1 rfl, by decide⟩
  by_cases hdots : segment = ['.', '.']
  · subst hdots
    exact .inr ⟨fun h => h.2.1 rfl, by decide⟩
  unfold encodeSegment
  rw [if_neg hdot, if_neg hdots]
  rcases flatMap_encodeChar_eq_or segment with ⟨hsafe, hsame⟩ | ⟨hsafe, hlt⟩
  · exact .inl ⟨⟨hdot, hdots, hsafe⟩, hsame⟩
  · exact .inr ⟨fun h => hsafe h.2.2, hlt⟩

theorem length_lt_encodeSegment {segment : List Char} (h : encodeSegment segment ≠ segment) :
    segment.length < (encodeSegment segment).length :=
  (encodeSegment_eq_or segment).elim (fun hsame => absurd hsame.2 h) And.right

theorem encodeSegment_eq_self_iff {segment : List Char} :
    encodeSegment segment = segment ↔
      segment ≠ ['.'] ∧ segment ≠ ['.', '.'] ∧ ∀ c ∈ segment, isSafe c = true := by
  rcases encodeSegment_eq_or segment with ⟨hsafe, hsame⟩ | ⟨hsafe, hlt⟩
  · exact iff_of_true hsame hsafe
  · refine iff_of_false (fun hsame => ?_) hsafe
    rw [hsame] at hlt
    exact lt_irrefl _ hlt

/-! ## Paths of texts -/

/-- The segments of the path of a text are not empty and hold no delimiter. -/
theorem plain_of_mem_segmentsOf {text segment : List Char} (h : segment ∈ segmentsOf text) :
    segment ≠ [] ∧ pathDelimiter ∉ segment := by
  obtain ⟨part, hpart, rfl⟩ := List.mem_map.1 h
  obtain ⟨hne, hd⟩ := plain_of_mem_parts hpart
  exact ⟨encodeSegment_ne_nil hne, delimiter_notMem_encodeSegment hd⟩

theorem segmentsOf_of_plain {a : List Char} (hne : a ≠ []) (h : pathDelimiter ∉ a) :
    segmentsOf a = [encodeSegment a] := by
  unfold segmentsOf
  rw [parts_of_plain hne h, List.map_singleton]

theorem segmentsOf_ne_nil {text : List Char} (h : parts text ≠ []) : segmentsOf text ≠ [] :=
  List.map_eq_nil_iff.not.2 h

/-- The text is a path: it is its nonempty parts, with one delimiter between any two. -/
def IsProper (text : String) : Prop := join (parts text.toList) = text.toList

/-- A path has the segments of its text. -/
theorem segments_ofChars (text : List Char) : (ofChars text).segments = segmentsOf text := by
  unfold segments ofChars
  rw [String.toList_ofList, parts_join fun s hs => plain_of_mem_segmentsOf hs]

/-- A text counts by its parts. -/
theorem ofChars_congr {a b : List Char} (h : parts a = parts b) : ofChars a = ofChars b := by
  unfold ofChars segmentsOf
  rw [h]

/-- The path of a text is a path. -/
theorem isProper_ofChars (text : List Char) : IsProper (ofChars text).text := by
  unfold IsProper ofChars
  rw [String.toList_ofList, parts_join fun s hs => plain_of_mem_segmentsOf hs]

end ObjectPath

end BlobVault
