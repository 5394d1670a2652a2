/-!
# Texts and characters

1. The letters `a` to `z` and their capitals: names and units are compared without regard to which
   of the two they are. Every other character stands for itself.
2. The characters with the Unicode property White_Space, and trimming of texts by it.
3. Cutting texts at a separator: `splitLast?` cuts at the last place where a separator stands,
   `pieces` at every one. `occurs` looks for a part anywhere.
4. Decimal numerals: one ASCII digit or more, leading zeros allowed; a signed reading also takes one
   plus sign in front. Readers with a bound refuse values that reach it.
-/

namespace BlobVault.Text

/-! ## Letter case -/

/-- The text with the letters `a` to `z` in capitals. -/
def asciiUpper (s : String) : String := String.ofList (s.toList.map Char.toUpper)

/-- Whether two texts agree up to the case of ASCII letters. -/
def sameIgnoringCase (s t : String) : Bool := asciiUpper s == asciiUpper t

/-! ## White space -/

/-- Whether a character has the property White_Space. -/
def isBlank (c : Char) : Bool :=
  let n := c.toNat
  (9 ≤ n && n ≤ 13) || n == 0x20 || n == 0x85 || n == 0xA0 || n == 0x1680 ||
    (0x2000 ≤ n && n ≤ 0x200A) || n == 0x2028 || n == 0x2029 || n == 0x202F || n == 0x205F ||
    n == 0x3000

/-- The characters without the blanks at either end. -/
def trimChars (cs : List Char) : List Char :=
  ((cs.dropWhile isBlank).reverse.dropWhile isBlank).reverse

/-- The text without the blanks at either end. -/
def trim (s : String) : String := String.ofList (trimChars s.toList)

/-! ## Separators -/

/-- What stands before and after the last separator, if there is one. -/
def splitLast? (sep : Char) : List Char → Option (List Char × List Char)
  | [] => none
  | c :: r =>
    match splitLast? sep r with
    | some (before, after) => some (c :: before, after)
    | none => if c = sep then some ([], r) else none

/-- The pieces between separators, empty ones included. -/
def pieces (sep : Char) : List Char → List (List Char)
  | [] => [[]]
  | c :: r =>
    if c = sep then [] :: pieces sep r
    else
      match pieces sep r with
      | [] => [[c]]
      | p :: ps => (c :: p) :: ps

/-- What follows a given beginning, if the characters begin so. -/
def dropFront? : List Char → List Char → Option (List Char)
  | [], cs => some cs
  | _ :: _, [] => none
  | p :: ps, c :: cs => if p = c then dropFront? ps cs else none

/-- Whether characters stand somewhere in others. -/
def occurs (part : List Char) : List Char → Bool
  | [] => part.isEmpty
  | c :: r => part.isPrefixOf (c :: r) || occurs part r

/-! ## Numerals -/

/-- Whether a character is an ASCII digit. -/
def isDigit (c : Char) : Bool := '0' ≤ c && c ≤ '9'

/-- The value that digits stand for, read from the left. -/
def digitsValue (cs : List Char) : Nat := cs.foldl (fun n c => 10 * n + (c.toNat - 48)) 0

/-- The value of a numeral: one digit or more, and nothing else. -/
def decimal? (cs : List Char) : Option Nat :=
  if cs ≠ [] ∧ cs.all isDigit then some (digitsValue cs) else none

/-- The value of a numeral that may have one plus sign in front. -/
def plusDecimal? : List Char → Option Nat
  | '+' :: cs => decimal? cs
  | cs => decimal? cs

/-- The value of a numeral, if it is below a bound. -/
def decimalBelow? (bound : Nat) (cs : List Char) : Option Nat :=
  (plusDecimal? cs).filter (· < bound)

/-- The 64-bit value of a numeral. -/
def readUInt64? (cs : List Char) : Option UInt64 :=
  (decimalBelow? UInt64.size cs).map UInt64.ofNat

/-- The decimal numeral of a number, as characters. -/
def decimalChars (n : Nat) : List Char := Nat.toDigits 10 n

end BlobVault.Text
