import BlobVault.Proofs.ConfigInputs
import BlobVault.Proofs.Ranges

/-!
# The size of a cache in the properties

The size of the cache is stated as a number of bytes or with a unit, trimmed like every property.
The reader takes it exactly if it is written so and fits 64 bits, and refuses any other text as an
error of the configuration, so no size is wrapped around or cut off.

1. `Text.trimChars_of_getLast?`: texts that do not end with a blank are trimmed in front.
2. `StatesSize`: the texts that state a size; `readSize_eq_ok_iff`: they are what is read.
3. `Config.ofProperties_of_erase`: where the size of the cache goes.
4. `Config.ofProperties_cacheSize`: what the property does to a configuration that is valid without
   it.
-/

namespace BlobVault

open Std (ExtTreeMap)

namespace Text

/-! ## Letters -/

/-- Only the letters `a` to `z` have another capital. -/
theorem toUpper_eq_or (c : Char) :
    c.toUpper = c ∨ 97 ≤ c.toNat ∧ c.toNat ≤ 122 ∧ c.toUpper.toNat + 32 = c.toNat := by
  by_cases h : c.isLower = true
  · rw [Char.isLower, Bool.and_eq_true, decide_eq_true_iff, decide_eq_true_iff] at h
    have hlow : 97 ≤ c.toNat := h.1
    have hhigh : c.toNat ≤ 122 := h.2
    have hvalid : (c.toNat - 32).isValidChar := .inl (by omega)
    refine .inr ⟨hlow, hhigh, ?_⟩
    rw [Char.toUpper_eq_of_isLower, Char.toNat_ofNat, if_pos hvalid]
    · omega
    · rw [Char.isLower, Bool.and_eq_true, decide_eq_true_iff, decide_eq_true_iff]
      exact h
  · exact .inl (Char.toUpper_eq_of_not_isLower h)

theorem isDigit_iff {c : Char} : isDigit c = true ↔ 48 ≤ c.toNat ∧ c.toNat ≤ 57 := by
  unfold isDigit
  rw [Bool.and_eq_true, decide_eq_true_iff, decide_eq_true_iff]
  rfl

theorem isBlank_of_letter {c : Char} (hlow : 65 ≤ c.toNat) (hhigh : c.toNat ≤ 122) :
    isBlank c = false := by
  unfold isBlank
  simp only [Bool.or_eq_false_iff, Bool.and_eq_false_iff, decide_eq_false_iff_not,
    beq_eq_false_iff_ne]
  omega

theorem isBlank_toUpper (c : Char) : isBlank c.toUpper = isBlank c := by
  obtain hsame | ⟨hlow, hhigh, hupper⟩ := toUpper_eq_or c
  · rw [hsame]
  · rw [isBlank_of_letter (c := c) (by omega) hhigh, isBlank_of_letter (by omega) (by omega)]

theorem isDigit_toUpper (c : Char) : isDigit c.toUpper = isDigit c := by
  obtain hsame | ⟨hlow, hhigh, hupper⟩ := toUpper_eq_or c
  · rw [hsame]
  · rw [Bool.eq_iff_iff, isDigit_iff, isDigit_iff]
    omega

theorem toUpper_of_isDigit {c : Char} (h : isDigit c = true) : c.toUpper = c := by
  obtain hsame | ⟨hlow, -, -⟩ := toUpper_eq_or c
  · exact hsame
  · have := (isDigit_iff.1 h).2
    omega

theorem isDigit_of_isBlank {c : Char} (h : isBlank c = true) : isDigit c = false := by
  rw [← Bool.not_eq_true, isDigit_iff]
  unfold isBlank at h
  simp only [Bool.or_eq_true, Bool.and_eq_true, decide_eq_true_iff, beq_iff_eq] at h
  omega

/-! ## Trimming -/

theorem dropWhile_of_head? {p : Char → Bool} {cs : List Char} (h : ∀ c ∈ cs.head?, p c = false) :
    cs.dropWhile p = cs := by
  cases cs with
  | nil => rfl
  | cons c cs => exact List.dropWhile_cons_of_neg (by rw [h c rfl]; decide)

theorem takeWhile_of_head? {p : Char → Bool} {cs : List Char} (h : ∀ c ∈ cs.head?, p c = false) :
    cs.takeWhile p = [] := by
  cases cs with
  | nil => rfl
  | cons c cs => exact List.takeWhile_cons_of_neg (by rw [h c rfl]; decide)

theorem head?_dropWhile {p : Char → Bool} {l : List Char} {c : Char}
    (h : c ∈ (l.dropWhile p).head?) : p c = false := by
  have hnot := List.head?_dropWhile_not p l
  rw [Option.mem_def.1 h] at hnot
  exact hnot

theorem getLast?_dropWhile {p : Char → Bool} {cs : List Char} {c : Char}
    (h : c ∈ (cs.dropWhile p).getLast?) : c ∈ cs.getLast? := by
  rw [← List.takeWhile_append_dropWhile (p := p) (l := cs), List.getLast?_append,
    Option.mem_def.1 h]
  rfl

theorem getLast?_trimChars {cs : List Char} {c : Char} (h : c ∈ (trimChars cs).getLast?) :
    isBlank c = false := by
  unfold trimChars at h
  rw [List.getLast?_reverse] at h
  exact head?_dropWhile h

theorem head?_trimChars {cs : List Char} {c : Char} (h : c ∈ (trimChars cs).head?) :
    isBlank c = false := by
  obtain ⟨after, hafter⟩ := List.reverse_prefix.2
    (List.dropWhile_suffix isBlank (l := (cs.dropWhile isBlank).reverse))
  refine head?_dropWhile (l := cs) ?_
  unfold trimChars at h
  rw [← (cs.dropWhile isBlank).reverse_reverse, ← hafter, List.head?_append, Option.mem_def.1 h]
  rfl

/-- What does not end with a blank is trimmed in front only. -/
theorem trimChars_of_getLast? {cs : List Char} (h : ∀ c ∈ cs.getLast?, isBlank c = false) :
    trimChars cs = cs.dropWhile isBlank := by
  unfold trimChars
  rw [dropWhile_of_head?, List.reverse_reverse]
  intro c hc
  rw [List.head?_reverse] at hc
  exact h c (getLast?_dropWhile hc)

theorem trimChars_trimChars (cs : List Char) : trimChars (trimChars cs) = trimChars cs := by
  rw [trimChars_of_getLast? fun _ => getLast?_trimChars,
    dropWhile_of_head? fun _ => head?_trimChars]

theorem trim_trim (text : String) : trim (trim text) = trim text := by
  unfold trim
  rw [String.toList_ofList, trimChars_trimChars]

theorem dropWhile_map_toUpper {p : Char → Bool} (hp : ∀ c, p c.toUpper = p c) (cs : List Char) :
    (cs.map Char.toUpper).dropWhile p = (cs.dropWhile p).map Char.toUpper := by
  rw [List.dropWhile_map, show p ∘ Char.toUpper = p from funext hp]

/-- Capitals are trimmed like the letters that they are of. -/
theorem trimChars_map_toUpper (cs : List Char) :
    trimChars (cs.map Char.toUpper) = (trimChars cs).map Char.toUpper := by
  unfold trimChars
  rw [dropWhile_map_toUpper isBlank_toUpper, ← List.map_reverse,
    dropWhile_map_toUpper isBlank_toUpper, ← List.map_reverse]

theorem takeWhile_isDigit_map_toUpper (cs : List Char) :
    (cs.map Char.toUpper).takeWhile isDigit = cs.takeWhile isDigit := by
  rw [List.takeWhile_map, show isDigit ∘ Char.toUpper = isDigit from funext isDigit_toUpper]
  refine (List.map_congr_left fun c hc => ?_).trans (List.map_id _)
  exact toUpper_of_isDigit (List.mem_takeWhile_imp hc)

end Text

/-! ## Sizes -/

open Text (isDigit isBlank digitsValue trimChars)

/-- The units of a size, in capitals, with the number of bytes of each. -/
def sizeUnits : List (String × Nat) :=
  [("", 1), ("B", 1), ("K", 1024), ("KB", 1024), ("M", 1024 ^ 2), ("MB", 1024 ^ 2),
    ("G", 1024 ^ 3), ("GB", 1024 ^ 3)]

/-- The text states the number of bytes: one ASCII digit or more, then any blanks, then a unit in
any case, where neither the number of units nor the number of bytes passes 64 bits. -/
def StatesSize (text : String) (size : Nat) : Prop :=
  ∃ digits blanks unit factor, text.toList = digits ++ (blanks ++ unit) ∧
    digits ≠ [] ∧ (∀ c ∈ digits, isDigit c = true) ∧ (∀ c ∈ blanks, isBlank c = true) ∧
    (Text.asciiUpper (String.ofList unit), factor) ∈ sizeUnits ∧
    digitsValue digits < UInt64.size ∧ size = digitsValue digits * factor ∧ size < UInt64.size

theorem unitSize?_eq_some_iff {unit : List Char} {factor : Nat} :
    unitSize? unit = some factor ↔ (String.ofList unit, factor) ∈ sizeUnits := by
  constructor
  · intro h
    unfold unitSize? at h
    split_ifs at h with hbyte hkilo hmega hgiga
    all_goals obtain rfl := Option.some.inj h
    · rcases hbyte with rfl | rfl <;> decide
    · rcases hkilo with rfl | rfl <;> decide
    · rcases hmega with rfl | rfl <;> decide
    · rcases hgiga with rfl | rfl <;> decide
  · intro h
    have hunits : ∀ entry ∈ sizeUnits, unitSize? entry.1.toList = some entry.2 := by decide
    rw [← String.toList_ofList (l := unit)]
    exact hunits _ h

/-- A unit has neither digits nor blanks. -/
theorem letters_of_unitSize? {unit : List Char} {factor : Nat} (h : unitSize? unit = some factor)
    {c : Char} (hc : c ∈ unit) : isDigit c = false ∧ isBlank c = false := by
  have hletters : ∀ entry ∈ sizeUnits, ∀ c ∈ entry.1.toList, 65 ≤ c.toNat ∧ c.toNat ≤ 90 := by
    simp [sizeUnits]
  obtain ⟨hlow, hhigh⟩ := hletters _ (unitSize?_eq_some_iff.1 h) c (by rwa [String.toList_ofList])
  refine ⟨?_, Text.isBlank_of_letter hlow (by omega)⟩
  rw [← Bool.not_eq_true, Text.isDigit_iff]
  omega

/-- Digits are read as the number that they stand for, if there are any and it fits 64 bits. -/
theorem readNumber_eq_ok_iff {property : String} {digits : List Char}
    (hdigits : ∀ c ∈ digits, isDigit c = true) {n : Nat} :
    readNumber property (String.ofList digits) = .ok n ↔
      digits ≠ [] ∧ digitsValue digits = n ∧ n < UInt64.size := by
  have hplain : Text.plusDecimal? digits = Text.decimal? digits := by
    refine Text.plusDecimal?_of_ne ?_
    rintro rest rfl
    exact absurd (hdigits '+' List.mem_cons_self) (by decide)
  have hread : Text.decimalBelow? UInt64.size digits = some n ↔
      digits ≠ [] ∧ digitsValue digits = n ∧ n < UInt64.size := by
    unfold Text.decimalBelow?
    rw [hplain, Option.filter_eq_some_iff, Text.decimal?_eq_some_iff, decide_eq_true_iff]
    simp only [and_iff_right hdigits, and_assoc]
  rw [← hread]
  unfold readNumber
  rw [String.toList_ofList]
  cases Text.decimalBelow? UInt64.size digits with
  | none => exact ⟨nofun, nofun⟩
  | some m => rw [Except.ok.injEq, Option.some_inj]

/-- What is read as a size, by the parts of the text: the digits in front, what is trimmed off
behind them, and the unit. -/
theorem readSize_eq_ok_iff_parts {value : String} {text : List Char}
    (htext : trimChars value.toList = text) {size : Nat} :
    readSize value = .ok size ↔ ∃ factor n,
      unitSize? (((text.dropWhile isDigit).dropWhile isBlank).map Char.toUpper) = some factor ∧
      readNumber cacheSizeProperty (String.ofList (text.takeWhile isDigit)) = .ok n ∧
      n * factor = size ∧ size < UInt64.size := by
  have hrest : trimChars (text.dropWhile isDigit) = (text.dropWhile isDigit).dropWhile isBlank :=
    Text.trimChars_of_getLast? fun c hc =>
      Text.getLast?_trimChars (htext ▸ Text.getLast?_dropWhile hc)
  unfold readSize
  dsimp only
  rw [htext, Text.takeWhile_isDigit_map_toUpper, Text.dropWhile_map_toUpper Text.isDigit_toUpper,
    Text.trimChars_map_toUpper, hrest]
  cases unitSize? (((text.dropWhile isDigit).dropWhile isBlank).map Char.toUpper) with
  | none => exact ⟨nofun, nofun⟩
  | some factor =>
    dsimp only
    cases readNumber cacheSizeProperty (String.ofList (text.takeWhile isDigit)) with
    | error e => exact ⟨nofun, nofun⟩
    | ok n =>
      dsimp only
      constructor
      · intro h
        split_ifs at h with hsize
        obtain rfl := Except.ok.inj h
        exact ⟨factor, n, rfl, rfl, rfl, hsize⟩
      · rintro ⟨_, _, ⟨⟩, ⟨⟩, rfl, hsize⟩
        exact if_pos hsize

/-- The texts that are read as a size are the ones that state it. -/
theorem readSize_eq_ok_iff {value : String} {size : Nat} :
    readSize value = .ok size ↔ StatesSize (Text.trim value) size := by
  unfold StatesSize Text.trim
  rw [String.toList_ofList, readSize_eq_ok_iff_parts rfl]
  generalize trimChars value.toList = text
  constructor
  · rintro ⟨factor, n, hunit, hn, rfl, hsize⟩
    obtain ⟨hne, rfl, hbelow⟩ :=
      (readNumber_eq_ok_iff fun c => List.mem_takeWhile_imp).1 hn
    refine ⟨text.takeWhile isDigit, (text.dropWhile isDigit).takeWhile isBlank,
      (text.dropWhile isDigit).dropWhile isBlank, factor, ?_, hne,
      fun c => List.mem_takeWhile_imp, fun c => List.mem_takeWhile_imp, ?_, hbelow, rfl, hsize⟩
    · rw [List.takeWhile_append_dropWhile, List.takeWhile_append_dropWhile]
    · unfold Text.asciiUpper
      rw [String.toList_ofList]
      exact unitSize?_eq_some_iff.1 hunit
  · rintro ⟨digits, blanks, unit, factor, rfl, hne, hdigits, hblanks, hunit, hbelow, rfl, hsize⟩
    unfold Text.asciiUpper at hunit
    rw [String.toList_ofList, ← unitSize?_eq_some_iff] at hunit
    have hletters : ∀ c ∈ unit, isDigit c = false ∧ isBlank c = false := by
      intro c hc
      rw [← Text.isDigit_toUpper, ← Text.isBlank_toUpper]
      exact letters_of_unitSize? hunit (List.mem_map_of_mem hc)
    have hnext : ∀ c ∈ (blanks ++ unit).head?, isDigit c = false := by
      intro c hc
      rcases List.mem_append.1 (List.mem_of_mem_head? hc) with hblank | hletter
      · exact Text.isDigit_of_isBlank (hblanks c hblank)
      · exact (hletters c hletter).1
    rw [List.dropWhile_append_of_pos hdigits, List.takeWhile_append_of_pos hdigits,
      Text.dropWhile_of_head? hnext, Text.takeWhile_of_head? hnext, List.append_nil,
      List.dropWhile_append_of_pos hblanks,
      Text.dropWhile_of_head? fun c hc => (hletters c (List.mem_of_mem_head? hc)).2]
    exact ⟨factor, _, hunit, (readNumber_eq_ok_iff hdigits).2 ⟨hne, rfl, hbelow⟩, rfl, hsize⟩

/-- A text that is not read is reported as the value of the property, or its digits are. -/
theorem readSize_error {value : String} {e : BlobError} (h : readSize value = .error e) :
    ∃ said, e = .config (.malformed cacheSizeProperty said) ∨
      e = .config (.outOfRange cacheSizeProperty said) := by
  unfold readSize at h
  dsimp only at h
  split at h
  · exact ⟨value, .inl (Except.error.inj h).symm⟩
  · split at h
    · rename_i hnumber
      obtain rfl := Except.error.inj h
      unfold readNumber at hnumber
      split at hnumber
      · cases hnumber
      · exact ⟨_, .inl (Except.error.inj hnumber).symm⟩
    · split_ifs at h
      exact ⟨value, .inr (Except.error.inj h).symm⟩

/-! ## Configurations -/

theorem Properties.value?_erase_of_ne {p : Properties} {name gone : String} (h : gone ≠ name) :
    Properties.value? (p.erase gone) name = p.value? name := by
  unfold Properties.value?
  rw [ExtTreeMap.getElem?_erase, if_neg fun heq => h (Std.LawfulEqCmp.eq_of_compare heq)]

theorem Properties.value?_erase_self (p : Properties) (gone : String) :
    Properties.value? (p.erase gone) gone = none := by
  unfold Properties.value?
  rw [ExtTreeMap.getElem?_erase_self]
  rfl

namespace CachingConfig

/-- The cache with another bound on its size. -/
def withMaxSize (c : CachingConfig) (size : Nat) : CachingConfig :=
  { c with limits := { c.limits with maxSize := size } }

end CachingConfig

namespace Config

variable {p : Properties} {env : String → Option String} {c : Config} {caching : CachingConfig}

/-- In a cache that is valid without it, the size that is stated replaces the one that was there. -/
theorem cachingOf_of_erase {value : String} (hvalue : p.value? cacheSizeProperty = some value)
    (h : cachingOf (p.erase cacheSizeProperty) = .ok (some caching)) :
    cachingOf p = do return some (caching.withMaxSize (← readSize value)) := by
  have hothers : ∀ name, cacheSizeProperty ≠ name →
      Properties.value? (p.erase cacheSizeProperty) name = p.value? name :=
    fun _ => Properties.value?_erase_of_ne
  have hnumbers : ∀ name other, cacheSizeProperty ≠ name →
      numberOr (p.erase cacheSizeProperty) name other = numberOr p name other := by
    intro name other hname
    unfold numberOr
    rw [hothers name hname]
  unfold cachingOf at h ⊢
  dsimp only at h ⊢
  rw [hothers "nocache" (by decide), hothers "cachedir" (by decide),
    hnumbers "cachecount" _ (by decide), hnumbers "cacheminage" _ (by decide),
    Properties.value?_erase_self] at h
  rw [hvalue]
  split_ifs at h ⊢
  · cases h
  dsimp only at h ⊢
  obtain ⟨size, -, h⟩ := ok_of_bind h
  obtain ⟨count, hcount, h⟩ := ok_of_bind h
  obtain ⟨age, hage, h⟩ := ok_of_bind h
  obtain rfl := Option.some.inj (Except.ok.inj h)
  rw [hcount, hage]
  cases readSize value <;> rfl

/-- In a configuration that is valid without it, the size that is stated goes to the cache. -/
theorem ofProperties_of_erase {value : String} (hvalue : p.value? cacheSizeProperty = some value)
    (h : ofProperties (p.erase cacheSizeProperty) env = .ok c)
    (hcache : c.caching? = some caching) :
    ofProperties p env = do
      return { c with caching? := some (caching.withMaxSize (← readSize value)) } := by
  have hothers : ∀ name, cacheSizeProperty ≠ name →
      Properties.value? (p.erase cacheSizeProperty) name = p.value? name :=
    fun _ => Properties.value?_erase_of_ne
  have huncached : uncachedOf (p.erase cacheSizeProperty) env = uncachedOf p env := by
    refine uncachedOf_congr (account_congr (hothers _ (by decide))
      (fun _ => hothers _ (by decide)) fun _ _ _ => rfl) fun name hname _ => hothers name ?_
    rintro rfl
    exact absurd hname (by decide)
  rw [ofProperties_eq, huncached] at h
  obtain ⟨front, hfront, h⟩ := ok_of_bind h
  obtain ⟨caching?, hback, h⟩ := ok_of_bind h
  obtain rfl := Except.ok.inj h
  obtain rfl : caching? = some caching := hcache
  rw [ofProperties_eq, hfront, cachingOf_of_erase hvalue hback]
  cases readSize value <;> rfl

/-- **The size of a cache.** Where the properties are valid without a size of the cache, and do not
switch the cache off, a size that is not blank is accepted exactly if its trimmed text states one.
Then the cache gets this size, and nothing else changes. Any other text is refused as an error of
the configuration, which names the property. -/
theorem ofProperties_cacheSize {text : String} (htext : p[cacheSizeProperty]? = some text)
    (hblank : Text.trim text ≠ "")
    (hothers : ofProperties (p.erase cacheSizeProperty) env = .ok c)
    (hcache : c.caching? = some caching) :
    ((∃ d, ofProperties p env = .ok d) ↔ ∃ size, StatesSize (Text.trim text) size) ∧
    (∀ size, StatesSize (Text.trim text) size →
      ofProperties p env = .ok { c with caching? := some (caching.withMaxSize size) }) ∧
    ((¬ ∃ size, StatesSize (Text.trim text) size) →
      ∃ said, ofProperties p env = .error (.config (.malformed cacheSizeProperty said)) ∨
        ofProperties p env = .error (.config (.outOfRange cacheSizeProperty said))) := by
  have hvalue : p.value? cacheSizeProperty = some (Text.trim text) := by
    unfold Properties.value?
    rw [htext]
    exact Option.filter_eq_some_iff.2 ⟨rfl, decide_eq_true hblank⟩
  have hstates (size : Nat) :
      StatesSize (Text.trim text) size ↔ readSize (Text.trim text) = .ok size := by
    rw [readSize_eq_ok_iff, Text.trim_trim]
  simp only [hstates]
  rw [ofProperties_of_erase hvalue hothers hcache]
  cases hread : readSize (Text.trim text) with
  | error e =>
    refine ⟨⟨nofun, nofun⟩, nofun, fun _ => ?_⟩
    obtain ⟨said, rfl | rfl⟩ := readSize_error hread
    · exact ⟨said, .inl rfl⟩
    · exact ⟨said, .inr rfl⟩
  | ok size =>
    refine ⟨⟨fun _ => ⟨size, rfl⟩, fun _ => ⟨_, rfl⟩⟩, ?_, fun hnone => absurd ⟨size, rfl⟩ hnone⟩
    rintro _ ⟨⟩
    rfl

/-- Blanks around the text and before the unit, and a small letter in the unit, are taken. -/
theorem ofProperties_cacheSize_of_blanks :
    let p : Properties :=
      (ExtTreeMap.insert ∅ "container" "box").insert cacheSizeProperty " 12 kB "
    ∃ c, ofProperties p some = .ok c ∧
      c.caching? = some (CachingConfig.standard.withMaxSize 12288) := by
  intro p
  have htext : p[cacheSizeProperty]? = some " 12 kB " := ExtTreeMap.getElem?_insert_self
  have hothers : ofProperties (p.erase cacheSizeProperty) some =
      .ok { accountName := accountVariable, accountKey := accountKeyVariable,
            container := "box" } := by
    unfold ofProperties
    rfl
  have hstates : StatesSize (Text.trim " 12 kB ") 12288 :=
    ⟨['1', '2'], [' '], ['k', 'B'], 1024, by decide, by decide, List.all_eq_true.1 rfl,
      List.all_eq_true.1 rfl, by decide, by decide, by decide, by decide⟩
  exact ⟨_, (ofProperties_cacheSize htext (by decide) hothers rfl).2.1 12288 hstates, rfl⟩

end Config

end BlobVault
