import BlobVault.Bytes
import BlobVault.Text.Basic

/-!
# Standard Base64

Groups of four characters stand for three bytes; the last group may be shortened and is then filled
up with equals signs. Bits that stand for no byte have to be zero.
-/

namespace BlobVault.Base64

/-- The value of a character. -/
def value? (c : Char) : Option Nat :=
  if 'A' ≤ c ∧ c ≤ 'Z' then some (c.toNat - 65)
  else if 'a' ≤ c ∧ c ≤ 'z' then some (c.toNat - 71)
  else if Text.isDigit c then some (c.toNat + 4)
  else if c = '+' then some 62
  else if c = '/' then some 63
  else none

/-- The bytes of one full group. -/
def group? (a b c d : Char) : Option Bytes := do
  let n := (← value? a) * 262144 + (← value? b) * 4096 + (← value? c) * 64 + (← value? d)
  return [UInt8.ofNat (n / 65536), UInt8.ofNat (n / 256), UInt8.ofNat n]

/-- The two bytes of a group that ends in one equals sign. -/
def twoBytes? (a b c : Char) : Option Bytes := do
  let n := (← value? a) * 4096 + (← value? b) * 64 + (← value? c)
  if n % 4 = 0 then return [UInt8.ofNat (n / 1024), UInt8.ofNat (n / 4)] else none

/-- The byte of a group that ends in two equals signs. -/
def oneByte? (a b : Char) : Option Bytes := do
  let n := (← value? a) * 64 + (← value? b)
  if n % 16 = 0 then return [UInt8.ofNat (n / 16)] else none

/-- The bytes that a text stands for. -/
def decodeChars? : List Char → Option Bytes
  | [] => some []
  | [a, b, '=', '='] => oneByte? a b
  | [a, b, c, '='] => twoBytes? a b c
  | a :: b :: c :: d :: r => do
    let front ← group? a b c d
    let rest ← decodeChars? r
    return front ++ rest
  | _ => none

/-- The bytes that a text stands for. -/
def decode? (text : String) : Option Bytes := decodeChars? text.toList

end BlobVault.Base64
