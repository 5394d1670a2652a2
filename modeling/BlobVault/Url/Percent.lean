import BlobVault.Bytes
import BlobVault.ObjectPath

/-!
# Percent-encoding in URLs

Each part of a URL has a set of characters that it may not hold as they are; those, the controls and
everything outside ASCII are written as percent signs with two digits for each byte.
-/

namespace BlobVault.Url

/-- Whether a character is a control or lies outside ASCII. -/
def isControlOrForeign (c : Char) : Bool := c.toNat < 0x20 || 0x7E < c.toNat

/-- The characters with those of a set, the controls and the foreign ones percent-encoded. -/
def percentEncode (set : List Char) (cs : List Char) : List Char :=
  cs.flatMap fun c =>
    if isControlOrForeign c || set.contains c then
      (String.utf8EncodeChar c).flatMap ObjectPath.percent
    else [c]

/-- Not allowed in a fragment. -/
def fragmentSet : List Char := [' ', '"', '<', '>', '\x60']

/-- Not allowed in a path. -/
def pathSet : List Char := fragmentSet ++ ['#', '?', '\x7b', '\x7d']

/-- Not allowed in one segment of a path that is added on its own. -/
def segmentSet : List Char := pathSet ++ ['/', '%']

/-- Not allowed in such a segment of a URL with a special scheme. -/
def specialSegmentSet : List Char := segmentSet ++ ['\\']

/-- Not allowed in a query. -/
def querySet : List Char := [' ', '"', '#', '<', '>']

/-- Not allowed in the query of a URL with a special scheme. -/
def specialQuerySet : List Char := querySet ++ ['\'']

/-- Not allowed in a user name or a password. -/
def userinfoSet : List Char := pathSet ++ ['/', ':', ';', '=', '@', '[', '\\', ']', '^', '|']

/-- The bytes that percent-encoded bytes stand for; a percent sign without two digits stands for
itself. -/
def percentDecode : Bytes → Bytes
  | [] => []
  | [a] => [a]
  | [a, b] => [a, b]
  | a :: b :: c :: r =>
    let digits := if a = 0x25 then
        Hex.decodeChars? [Char.ofNat b.toNat, Char.ofNat c.toNat]
      else none
    match digits with
    | some bytes => bytes ++ percentDecode r
    | none => a :: percentDecode (b :: c :: r)

end BlobVault.Url
