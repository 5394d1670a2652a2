/-!
# Bytes and their hexadecimal form

The content of a blob or a file is a list of bytes. `Hex.encode` writes bytes as lowercase
hexadecimal digits, two for each byte, the high half first; `Hex.decode?` reads them back.
-/

namespace BlobVault

/-- The content of a blob, a file or a stream. -/
abbrev Bytes := List UInt8

/-- The UTF-8 form of a text. -/
def Bytes.ofText (s : String) : Bytes := s.toUTF8.data.toList

namespace Hex

/-- The digit of a value below 16. -/
def digit (n : Nat) : Char :=
  if n < 10 then Char.ofNat (48 + n) else Char.ofNat (87 + n)

/-- The value of a digit, in either case. -/
def value? (c : Char) : Option Nat :=
  if '0' ≤ c ∧ c ≤ '9' then some (c.toNat - 48)
  else if 'a' ≤ c ∧ c ≤ 'f' then some (c.toNat - 87)
  else if 'A' ≤ c ∧ c ≤ 'F' then some (c.toNat - 55)
  else none

/-- Two digits for each byte, the high half first. -/
def encodeChars : Bytes → List Char
  | [] => []
  | b :: r => digit (b.toNat / 16) :: digit (b.toNat % 16) :: encodeChars r

/-- The lowercase hexadecimal text of some bytes. -/
def encode (bytes : Bytes) : String := String.ofList (encodeChars bytes)

/-- The bytes that pairs of digits stand for; odd counts and other characters are refused. -/
def decodeChars? : List Char → Option Bytes
  | [] => some []
  | [_] => none
  | a :: b :: r => do
    let high ← value? a
    let low ← value? b
    let rest ← decodeChars? r
    return UInt8.ofNat (16 * high + low) :: rest

/-- The bytes of a hexadecimal text. -/
def decode? (text : String) : Option Bytes := decodeChars? text.toList

/-- Whether a character is a lowercase hexadecimal digit. -/
def isLowerDigit (c : Char) : Bool := ('0' ≤ c && c ≤ '9') || ('a' ≤ c && c ≤ 'f')

end Hex

end BlobVault
