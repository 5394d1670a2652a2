import BlobVault.Bytes
import BlobVault.Text.Basic

/-!
# Object paths

A container addresses objects by paths: nonempty segments joined by slashes. `ObjectPath.ofText`
makes a path of any text. It drops empty segments, gives the segments `.` and `..` harmless names,
and percent-encodes in the others every character outside a small safe set, so that the parts of a
path are exactly the encoded nonempty parts of the text.
-/

namespace BlobVault

/-- The delimiter between the segments of a path. -/
def pathDelimiter : Char := '/'

/-- The address of an object inside a container, in encoded form. -/
structure ObjectPath where
  text : String
  deriving DecidableEq, Repr

namespace ObjectPath

/-- The digit of a value below 16, in capitals. -/
def upperDigit (n : Nat) : Char :=
  if n < 10 then Char.ofNat (48 + n) else Char.ofNat (55 + n)

/-- A byte as a percent sign and two digits. -/
def percent (b : UInt8) : List Char :=
  ['%', upperDigit (b.toNat / 16), upperDigit (b.toNat % 16)]

/-- Printable characters of ASCII that a segment may not hold as they are. -/
def reserved : List Char :=
  ['\\', '\x7b', '^', '\x7d', '%', '\x60', ']', '"', '>', '[', '~', '<', '#', '|', '*', '?']

/-- Whether a character stands for itself in a segment. -/
def isSafe (c : Char) : Bool :=
  0x20 ≤ c.toNat && c.toNat < 0x7F && !reserved.contains c

/-- A character as it stands in a segment. -/
def encodeChar (c : Char) : List Char :=
  if isSafe c then [c] else (String.utf8EncodeChar c).flatMap percent

/-- A segment in encoded form. -/
def encodeSegment (segment : List Char) : List Char :=
  if segment = ['.'] then "%2E".toList
  else if segment = ['.', '.'] then "%2E%2E".toList
  else segment.flatMap encodeChar

/-- The nonempty parts of a text. -/
def parts (text : List Char) : List (List Char) :=
  (Text.pieces pathDelimiter text).filter (· ≠ [])

/-- The encoded segments of the path of a text. -/
def segmentsOf (text : List Char) : List (List Char) := (parts text).map encodeSegment

/-- Segments joined by the delimiter. -/
def join : List (List Char) → List Char
  | [] => []
  | [s] => s
  | s :: t :: r => s ++ pathDelimiter :: join (t :: r)

/-- The path of a text. -/
def ofChars (text : List Char) : ObjectPath := ⟨String.ofList (join (segmentsOf text))⟩

/-- The path of a text. -/
def ofText (text : String) : ObjectPath := ofChars text.toList

/-- The segments of a path. -/
def segments (p : ObjectPath) : List (List Char) := parts p.text.toList

/-- Whether a path lies strictly below another one. -/
def isBelow (p top : ObjectPath) : Bool :=
  match Text.dropFront? top.text.toList p.text.toList with
  | some (c :: _ :: _) => c == pathDelimiter
  | _ => false

end ObjectPath

end BlobVault
