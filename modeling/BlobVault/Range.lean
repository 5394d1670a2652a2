import BlobVault.Bytes
import BlobVault.Text.Basic

/-!
# Byte ranges and annotated keys

A byte range is a start offset and a length, both 64-bit. A key is annotated with a range by
writing `key;start;end`, the end inclusive. `ByteRange.splitKey` reads an annotation back; a key
that carries none comes back as it is. Sums that would pass the largest offset stop there.
-/

namespace BlobVault

/-- The largest 64-bit offset. -/
def maxOffset : Nat := UInt64.size - 1

/-- The separator between a key and the offsets of its range. -/
def rangeSeparator : Char := ';'

/-- A window of a blob: where it starts and how many bytes it holds. -/
structure ByteRange where
  start : UInt64
  length : UInt64
  deriving DecidableEq, Repr

namespace ByteRange

/-- The sum of two offsets, stopped at the largest one. -/
def saturatingAdd (a b : UInt64) : UInt64 := UInt64.ofNat (min (a.toNat + b.toNat) maxOffset)

/-- The difference of two offsets, stopped at zero. -/
def saturatingSub (a b : UInt64) : UInt64 := UInt64.ofNat (a.toNat - b.toNat)

/-- The range from one offset to another, both included. -/
def inclusive (first last : UInt64) : ByteRange :=
  ⟨first, saturatingAdd (saturatingSub last first) 1⟩

/-- The last offset of the range. -/
def lastOffset (r : ByteRange) : UInt64 := saturatingAdd r.start (saturatingSub r.length 1)

/-- The offset just past the range. -/
def stop (r : ByteRange) : UInt64 := saturatingAdd r.start r.length

/-- The key annotated with the range. -/
def annotate (r : ByteRange) (key : String) : String :=
  String.ofList (key.toList ++ rangeSeparator :: (Text.decimalChars r.start.toNat ++
    rangeSeparator :: Text.decimalChars r.lastOffset.toNat))

/-- The range that two offset texts stand for; the last offset must have one past it and must not
lie before the first. -/
def ofTexts? (first last : List Char) : Option ByteRange := do
  let s ← Text.readUInt64? first
  let e ← Text.readUInt64? last
  if e.toNat < maxOffset ∧ s.toNat ≤ e.toNat then
    some ⟨s, UInt64.ofNat (e.toNat - s.toNat + 1)⟩
  else none

/-- The base key and the range of an annotated key, if it is one. -/
def ofKey? (key : List Char) : Option (List Char × ByteRange) := do
  let (front, last) ← Text.splitLast? rangeSeparator key
  let (base, first) ← Text.splitLast? rangeSeparator front
  if base = [] then none
  else (ofTexts? first last).map fun r => (base, r)

/-- The key without its annotation, and the range; a key without one is left as it is. -/
def splitKey (key : String) : String × Option ByteRange :=
  match ofKey? key.toList with
  | some (base, r) => (String.ofList base, some r)
  | none => (key, none)

/-- Whether a key carries a range. -/
def isAnnotated (key : String) : Bool := (splitKey key).2.isSome

/-- The bytes of the content that lie in the range. -/
def window (r : ByteRange) (content : Bytes) : Bytes :=
  (content.take r.stop.toNat).drop r.start.toNat

end ByteRange

end BlobVault
