import BlobVault.Text.Decomposition
import BlobVault.Text.Mark

/-!
# Composed texts

The composed form of a text: characters are taken apart, marks of different classes are brought
into the order of their classes, and every character is put together again with the marks that no
other mark keeps from it. Texts that are canonically equivalent have the same composed form.
-/

namespace BlobVault.Text

/-! ## The order of marks -/

/-- Puts a mark in front of marks in order, behind those of a lower class. -/
def insertMark (c : Char) : List Char → List Char
  | [] => [c]
  | d :: r =>
    if combiningClass d ≠ 0 ∧ combiningClass d < combiningClass c then d :: insertMark c r
    else c :: d :: r

/-- The characters with the marks between two characters of class 0 in order. -/
def orderMarks : List Char → List Char
  | [] => []
  | c :: r => if combiningClass c = 0 then c :: orderMarks r else insertMark c (orderMarks r)

/-! ## Putting together -/

/-- The characters that are made of two others but never put together again. -/
def keptApart : Table := .ofText
  "344, 958 95F, 9DC 9DD, 9DF, A33, A36, A59 A5B, A5E, B5C B5D, F43, F4D, F52, F57, F5C, F69, F73,
   F75 F76, F78, F81, F93, F9D, FA2, FA7, FAC, FB9, 2ADC, FB1D, FB1F, FB2A FB36, FB38 FB3C, FB3E,
   FB40 FB41, FB43 FB44, FB46 FB4E, 1D15E 1D164, 1D1BB 1D1C0"

/-- The number of a pair of characters. -/
def pairNumber (a b : Nat) : Nat := a * 0x110000 + b

/-- The pairs that are put together, by their numbers, with what they make. -/
def pairs : Table :=
  let rows := decompositions.toList.filterMap fun row =>
    match row with
    | [c, a, b] => if keptApart.covers c then none else some [pairNumber a b, c]
    | _ => none
  (rows.mergeSort fun r s => r.headD 0 ≤ s.headD 0).toArray

/-- The syllable of two letters, or of a syllable without a third letter and one. -/
def joinLetters? (a b : Char) : Option Char :=
  let lead := a.toNat - firstLead
  let vowel := b.toNat - firstVowel
  let tail := b.toNat - beforeTails
  if firstLead ≤ a.toNat ∧ lead < 19 ∧ firstVowel ≤ b.toNat ∧ vowel < 21 then
    some (Char.ofNat (firstSyllable + lead * 588 + vowel * 28))
  else if (syllable? a).any (· % 28 = 0) ∧ 0 < tail ∧ tail < 28 then
    some (Char.ofNat (a.toNat + tail))
  else none

/-- What two characters make together. -/
def join? (a b : Char) : Option Char :=
  if b.toNat < firstMark then none
  else
    match joinLetters? a b with
    | some c => some c
    | none =>
      match pairs.entry? (pairNumber a.toNat b.toNat) with
      | some (c :: _) => some (Char.ofNat c)
      | _ => none

/-- Characters put together in part: what is done, in reverse, the last character of class 0, and
the marks that stay behind it, in reverse. -/
structure Joining where
  done : List Char := []
  base? : Option Char := none
  marks : List Char := []

namespace Joining

/-- What is done when no more marks follow. -/
def close (j : Joining) : List Char := j.marks ++ (j.base?.toList ++ j.done)

/-- One character more. It is put together with the last one of class 0 unless a mark of its own
class, or any mark if it has class 0, stands between them. -/
def push (j : Joining) (c : Char) : Joining :=
  let reaches := j.marks.head?.all (combiningClass · < combiningClass c)
  match if reaches then j.base?.bind (join? · c) else none with
  | some d => { j with base? := some d }
  | none =>
    if combiningClass c = 0 then { done := j.close, base? := some c }
    else { j with marks := c :: j.marks }

end Joining

/-- The composed form of a text. -/
def composed (cs : List Char) : List Char :=
  ((orderMarks (cs.flatMap decompose)).foldl Joining.push {}).close.reverse

end BlobVault.Text
