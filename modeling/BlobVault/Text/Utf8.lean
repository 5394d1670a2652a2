import BlobVault.Bytes

/-!
# Texts of any bytes

Bytes read as UTF-8. Where they are no UTF-8, a replacement character stands for the longest run of
bytes that a character could begin with, or for one byte that none begins with.
-/

namespace BlobVault.Text

/-- Stands for bytes that are no character. -/
def replacement : Char := '\ufffd'

/-- The beginning of a character: the value of its bits so far, how many bytes are to follow, and
the bounds of the next one. -/
structure Utf8Start where
  value : Nat
  more : Nat
  low : Nat := 0x80
  high : Nat := 0xBF

/-- What a byte begins, if it is the first of two bytes or more. -/
def Utf8Start.ofByte? (n : Nat) : Option Utf8Start :=
  if 0xC2 ≤ n ∧ n ≤ 0xDF then some { value := n - 0xC0, more := 1 }
  else if n = 0xE0 then some { value := 0, more := 2, low := 0xA0 }
  else if n = 0xED then some { value := 0xD, more := 2, high := 0x9F }
  else if 0xE1 ≤ n ∧ n ≤ 0xEF then some { value := n - 0xE0, more := 2 }
  else if n = 0xF0 then some { value := 0, more := 3, low := 0x90 }
  else if n = 0xF4 then some { value := 4, more := 3, high := 0x8F }
  else if 0xF1 ≤ n ∧ n ≤ 0xF3 then some { value := n - 0xF0, more := 3 }
  else none

/-- Characters that are read in part: those that are done, in reverse, and the beginning of one. -/
structure Utf8Draft where
  done : List Char := []
  start? : Option Utf8Start := none

namespace Utf8Draft

/-- What is done when no byte follows. -/
def close (d : Utf8Draft) : List Char :=
  if d.start?.isSome then replacement :: d.done else d.done

/-- The draft after a byte that continues no character. -/
def begin (d : Utf8Draft) (n : Nat) : Utf8Draft :=
  if n < 0x80 then { done := Char.ofNat n :: d.close }
  else
    match Utf8Start.ofByte? n with
    | some s => { done := d.close, start? := some s }
    | none => { done := replacement :: d.close }

/-- The draft after one byte. -/
def read (d : Utf8Draft) (b : UInt8) : Utf8Draft :=
  let n := b.toNat
  match d.start? with
  | none => d.begin n
  | some s =>
    if s.low ≤ n ∧ n ≤ s.high then
      let value := s.value * 64 + (n - 0x80)
      if s.more ≤ 1 then { done := Char.ofNat value :: d.done }
      else { d with start? := some { value, more := s.more - 1 } }
    else d.begin n

end Utf8Draft

/-- The characters that bytes stand for. -/
def decodeUtf8 (bytes : Bytes) : List Char := (bytes.foldl Utf8Draft.read {}).close.reverse

end BlobVault.Text
