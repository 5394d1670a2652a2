import BlobVault.Gc.Command
import BlobVault.Text.Basic

/-!
# Times in texts

Times are read in a relaxed form of RFC 3339, with blanks between the parts and any offset, and
written in UTC: with as many groups of three digits of a fraction as needed, and a `Z`.
-/

namespace BlobVault

/-! ## The calendar -/

/-- Whether a year is a leap year. -/
def isLeapYear (y : Int) : Bool := y % 4 = 0 && (y % 100 ≠ 0 || y % 400 = 0)

/-- The number of days of a month. -/
def daysInMonth (y : Int) (m : Nat) : Nat :=
  if m = 2 then if isLeapYear y then 29 else 28
  else if m = 4 ∨ m = 6 ∨ m = 9 ∨ m = 11 then 30 else 31

/-- The days from 1970-01-01 to a date. Years are counted from March here, so that the leap day is
the last one. -/
def daysFromDate (y : Int) (m d : Nat) : Int :=
  let y := if m ≤ 2 then y - 1 else y
  let era := y / 400
  let yearOfEra := y - era * 400
  let monthFromMarch : Int := if m > 2 then m - 3 else m + 9
  let dayOfYear := (153 * monthFromMarch + 2) / 5 + d - 1
  let dayOfEra := yearOfEra * 365 + yearOfEra / 4 - yearOfEra / 100 + dayOfYear
  era * 146097 + dayOfEra - 719468

/-- The date some days after 1970-01-01. -/
def dateFromDays (days : Int) : Int × Nat × Nat :=
  let z := days + 719468
  let era := z / 146097
  let dayOfEra := z - era * 146097
  let yearOfEra := (dayOfEra - dayOfEra / 1460 + dayOfEra / 36524 - dayOfEra / 146096) / 365
  let dayOfYear := dayOfEra - (365 * yearOfEra + yearOfEra / 4 - yearOfEra / 100)
  let m := (5 * dayOfYear + 2) / 153
  let d := dayOfYear - (153 * m + 2) / 5 + 1
  let month := if m < 10 then m + 3 else m - 9
  let y := yearOfEra + era * 400 + (if month ≤ 2 then 1 else 0)
  (y, month.toNat, d.toNat)

namespace Timestamp

/-! ## Writing -/

/-- A number with zeros in front. -/
def padded (width n : Nat) : List Char :=
  let ds := Text.decimalChars n
  List.replicate (width - ds.length) '0' ++ ds

/-- A year: four digits, or a sign and four digits or more. -/
def yearChars (y : Int) : List Char :=
  if 0 ≤ y ∧ y ≤ 9999 then padded 4 y.toNat
  else (if y < 0 then '-' else '+') :: padded 4 y.natAbs

/-- The fraction of a second. -/
def fractionChars (nanos : Nat) : List Char :=
  if nanos = 0 then []
  else if nanos % 1000000 = 0 then '.' :: padded 3 (nanos / 1000000)
  else if nanos % 1000 = 0 then '.' :: padded 6 (nanos / 1000)
  else '.' :: padded 9 nanos

/-- The text of a time in UTC. -/
def text (t : Timestamp) : String :=
  let (y, m, d) := dateFromDays t.days
  let leap := t.nanos / 1000000000
  String.ofList (yearChars y ++ '-' :: (padded 2 m ++ '-' :: (padded 2 d ++ 'T' ::
    (padded 2 (t.second / 3600) ++ ':' :: (padded 2 (t.second / 60 % 60) ++ ':' ::
      (padded 2 (t.second % 60 + leap) ++ fractionChars (t.nanos % 1000000000) ++ ['Z']))))))

/-! ## Reading -/

/-- The characters from the first that is no blank on. -/
def skipBlank (cs : List Char) : List Char := cs.dropWhile Text.isBlank

/-- A number of one digit or more, but no more than a width, and what follows it. -/
def numberUpTo? (width : Nat) (cs : List Char) : Option (Nat × List Char) :=
  let ds := (cs.take width).takeWhile Text.isDigit
  if ds = [] then none else some (Text.digitsValue ds, cs.drop ds.length)

/-- A number after blanks, within bounds. -/
def part? (lo hi : Nat) (cs : List Char) : Option (Nat × List Char) := do
  let (n, rest) ← numberUpTo? 2 (skipBlank cs)
  if lo ≤ n ∧ n ≤ hi then return (n, rest) else none

/-- A separator after blanks. -/
def separator? (c : Char) (cs : List Char) : Option (List Char) :=
  match skipBlank cs with
  | d :: r => if d = c then some r else none
  | [] => none

/-- Years from here on are refused, and so are those before its opposite. -/
def yearBound : Int := 262143

/-- Whether a day lies in a year that times can have. -/
def isDay (days : Int) : Bool :=
  daysFromDate (-yearBound) 1 1 ≤ days && days < daysFromDate yearBound 1 1

/-- A year after blanks; only a year with a sign may have more than four digits. -/
def year? (cs : List Char) : Option (Int × List Char) := do
  let cs := skipBlank cs
  let (y, rest) ← match cs with
    | '-' :: r => (numberUpTo? r.length r).map fun (n, rest) => (-(n : Int), rest)
    | '+' :: r => (numberUpTo? r.length r).map fun (n, rest) => ((n : Int), rest)
    | _ => (numberUpTo? 4 cs).map fun (n, rest) => ((n : Int), rest)
  if -yearBound ≤ y ∧ y < yearBound then return (y, rest) else none

/-- The nanoseconds of a fraction, if one is there; digits beyond the ninth do not count. -/
def fraction? : List Char → Option (Nat × List Char)
  | '.' :: r => do
    let ds := r.takeWhile Text.isDigit
    if ds = [] then none
    let kept := ds.take 9
    return (Text.digitsValue kept * Nat.pow 10 (9 - kept.length), r.drop ds.length)
  | cs => some (0, cs)

/-- Two digits, and what follows them. -/
def twoDigits? : List Char → Option (Nat × List Char)
  | a :: b :: r =>
    if Text.isDigit a ∧ Text.isDigit b then some (Text.digitsValue [a, b], r) else none
  | _ => none

/-- The offset from UTC in minutes, and what follows it. -/
def offset? (cs : List Char) : Option (Int × List Char) :=
  let signed := fun (negative : Bool) (r : List Char) => do
    let (h, r) ← twoDigits? r
    let (m, r) ← twoDigits? (r.dropWhile fun c => c = ':' || Text.isBlank c)
    if m ≥ 60 ∨ h * 60 + m ≥ 1440 then none
    let minutes : Int := h * 60 + m
    return (if negative then -minutes else minutes, r)
  if (cs.take 3).map Char.toUpper = ['U', 'T', 'C'] then some (0, cs.drop 3)
  else
    match cs with
    | 'Z' :: r => some (0, r)
    | 'z' :: r => some (0, r)
    | '+' :: r => signed false r
    | '-' :: r => signed true r
    | '\u2212' :: r => signed true r
    | _ => none

/-- The time that a text states. -/
def parse? (text : String) : Option Timestamp := do
  let (y, cs) ← year? text.toList
  let (m, cs) ← part? 1 12 (← separator? '-' cs)
  let (d, cs) ← part? 1 31 (← separator? '-' cs)
  if d > daysInMonth y m then none
  let cs ← match cs with
    | c :: r => if c = 'T' ∨ c = 't' ∨ c = ' ' then some r else none
    | [] => none
  let (hour, cs) ← part? 0 23 cs
  let (minute, cs) ← part? 0 59 (← separator? ':' cs)
  let (second, cs) ← part? 0 60 (← separator? ':' cs)
  let (nanos, cs) ← fraction? cs
  let (offset, cs) ← offset? (skipBlank cs)
  if skipBlank cs ≠ [] then none
  let leap := second / 60
  let total : Int := hour * 3600 + minute * 60 + (second - leap : Nat) - offset * 60
  let days := daysFromDate y m d + total / 86400
  if !isDay days then none
  return { days
           second := (total % 86400).toNat
           nanos := nanos + leap * 1000000000 }

end Timestamp

end BlobVault
