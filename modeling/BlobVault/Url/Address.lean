import BlobVault.Bytes
import BlobVault.Text.Basic

/-!
# Numeric addresses

IPv4 addresses in their decimal, octal and hexadecimal spellings, and IPv6 addresses with their
shortest form.
-/

namespace BlobVault.Url

/-! ## IPv4 -/

/-- The value of digits in a base, if all are digits of the base. -/
def valueIn? (base : Nat) (cs : List Char) : Option Nat :=
  cs.foldl (fun acc c => do
    let n ← acc
    let d ← Hex.value? c
    if d < base then some (n * base + d) else none) (some 0)

/-- The value of one part of an IPv4 address: hexadecimal after `0x`, octal after another zero. -/
def ipv4Part? : List Char → Option Nat
  | [] => none
  | '0' :: 'x' :: r => valueIn? 16 r
  | '0' :: 'X' :: r => valueIn? 16 r
  | ['0'] => some 0
  | '0' :: r => valueIn? 8 r
  | cs => valueIn? 10 cs

/-- The parts of a host between dots, without an empty one at the end. -/
def dottedParts (host : List Char) : List (List Char) :=
  let ps := Text.pieces '.' host
  if ps.length > 1 ∧ ps.getLast? = some [] then ps.dropLast else ps

/-- Whether the last part of a host is a number, so that the host has to be an IPv4 address. -/
def endsInNumber (host : List Char) : Bool :=
  match (dottedParts host).getLast? with
  | some last => (last ≠ [] && last.all Text.isDigit) || (ipv4Part? last).isSome
  | none => false

/-- The value of an IPv4 address: every part but the last is one byte, the last fills the rest. -/
def ipv4Value? (host : List Char) : Option Nat := do
  let ps := dottedParts host
  if ps.length > 4 then none
  let values ← ps.mapM ipv4Part?
  let last ← values.getLast?
  let front := values.dropLast
  if front.any (· > 255) then none
  if last ≥ 1 <<< (8 * (5 - values.length)) then none
  let high := front.zipIdx.foldl (fun n (v, i) => n + v <<< (8 * (3 - i))) 0
  return high + last

/-- The text of an IPv4 address. -/
def ipv4Text (value : Nat) : List Char :=
  let part := fun i => Text.decimalChars ((value >>> (8 * i)) % 256)
  part 3 ++ '.' :: (part 2 ++ '.' :: (part 1 ++ '.' :: part 0))

/-! ## IPv6 -/

/-- One group of up to four hexadecimal digits. -/
def ipv6Group? (cs : List Char) : Option Nat :=
  if cs ≠ [] ∧ cs.length ≤ 4 then valueIn? 16 cs else none

/-- Four decimal parts as two groups. -/
def ipv6Tail? (cs : List Char) : Option (List Nat) := do
  let ps := Text.pieces '.' cs
  if ps.length ≠ 4 then none
  let values ← ps.mapM fun p => do
    if p.length > 1 ∧ p.head? = some '0' then none
    let v ← Text.decimal? p
    if v ≤ 255 then some v else none
  match values with
  | [a, b, c, d] => some [a * 256 + b, c * 256 + d]
  | _ => none

/-- The groups of a run without a double colon; only at the end may an IPv4 tail stand. -/
def ipv6Run? (tail : Bool) : List (List Char) → Option (List Nat)
  | [] => some []
  | [p] =>
    if tail ∧ p.contains '.' then ipv6Tail? p else (ipv6Group? p).map fun g => [g]
  | p :: ps => do
    let g ← ipv6Group? p
    let gs ← ipv6Run? tail ps
    return g :: gs

/-- What stands before and after the first double colon. -/
def splitDoubleColon? : List Char → Option (List Char × List Char)
  | ':' :: ':' :: r => some ([], r)
  | c :: r => (splitDoubleColon? r).map fun (front, back) => (c :: front, back)
  | [] => none

/-- The groups of a text without a double colon. -/
def ipv6Groups? (tail : Bool) (cs : List Char) : Option (List Nat) :=
  if cs = [] then some [] else ipv6Run? tail (Text.pieces ':' cs)

/-- The eight groups of an IPv6 address. A double colon stands for one zero group or more. -/
def ipv6Value? (cs : List Char) : Option (List Nat) :=
  match splitDoubleColon? cs with
  | none => (ipv6Groups? true cs).filter (·.length = 8)
  | some (front, back) => do
    let a ← ipv6Groups? false front
    let b ← ipv6Groups? true back
    if a.length + b.length > 7 then none
    return a ++ List.replicate (8 - a.length - b.length) 0 ++ b

/-- The length of the run of zeros at the start. -/
def zeroRun (groups : List Nat) : Nat := (groups.takeWhile (· = 0)).length

/-- The first of the longest runs of zeros: where it starts, and its length. -/
def longestZeroRun (groups : List Nat) : Nat × Nat :=
  (List.range groups.length).foldl (fun best i =>
    let n := zeroRun (groups.drop i)
    if n > best.2 then (i, n) else best) (0, 0)

/-- Groups joined by colons. -/
def ipv6Join (groups : List Nat) : List Char :=
  List.intercalate [':'] (groups.map fun g => Nat.toDigits 16 g)

/-- The shortest text of an IPv6 address. -/
def ipv6Text (groups : List Nat) : List Char :=
  let (start, n) := longestZeroRun groups
  if n < 2 then ipv6Join groups
  else ipv6Join (groups.take start) ++ ':' :: ':' :: ipv6Join (groups.drop (start + n))

end BlobVault.Url
