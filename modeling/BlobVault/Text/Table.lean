import BlobVault.Bytes

/-!
# Tables of code points

Properties of characters are given by tables. A table is a list of rows, sorted by their first
numbers; what the other numbers of a row say is up to the table. A row is found by halving.
-/

namespace BlobVault.Text

/-- Rows of numbers in rising order of the first ones. -/
abbrev Table := Array (List Nat)

namespace Table

/-! ## Reading -/

/-- A table that is being read: the rows that are done, the numbers of the row under way in reverse,
and the number under way. -/
structure Draft where
  rows : Table := #[]
  row : List Nat := []
  number? : Option Nat := none

namespace Draft

/-- The draft after the end of a number. -/
def endNumber (d : Draft) : Draft :=
  match d.number? with
  | some n => { d with row := n :: d.row, number? := none }
  | none => d

/-- The draft after the end of a row. -/
def endRow (d : Draft) : Draft := { rows := d.rows.push d.endNumber.row.reverse }

/-- The draft after one character. -/
def read (d : Draft) (c : Char) : Draft :=
  if c = ',' then d.endRow
  else
    match Hex.value? c with
    | some v => { d with number? := some (d.number?.getD 0 * 16 + v) }
    | none => d.endNumber

end Draft

/-- The table that a text spells: hexadecimal numbers, with commas between the rows. -/
def ofText (s : String) : Table := (s.foldl Draft.read {}).endRow.rows

/-! ## Looking up -/

/-- The number of rows that begin with at most `n`. All rows before `lo` do so, and none from `hi`
on. -/
def rank (t : Table) (n lo hi : Nat) : Nat :=
  if lo < hi then
    let mid := (lo + hi) / 2
    if (t[mid]?.bind List.head?).any (· ≤ n) then rank t n (mid + 1) hi else rank t n lo mid
  else lo
termination_by hi - lo

/-- The last row that begins with at most `n`. -/
def row? (t : Table) (n : Nat) : Option (List Nat) :=
  match t.rank n 0 t.size with
  | 0 => none
  | i + 1 => t[i]?

/-- Whether `n` lies in a range of a table of ranges: a row gives the first and the last number of
one, or its only number. -/
def covers (t : Table) (n : Nat) : Bool :=
  match t.row? n with
  | some [only] => n = only
  | some (_ :: last :: _) => n ≤ last
  | _ => false

/-- The value at `n` in a table of ranges with values: a row gives the first and the last number of
a range and its value. -/
def value? (t : Table) (n : Nat) : Option Nat :=
  match t.row? n with
  | some [_, last, value] => if n ≤ last then some value else none
  | _ => none

/-- The numbers that follow `n` in a row of its own. -/
def entry? (t : Table) (n : Nat) : Option (List Nat) :=
  match t.row? n with
  | some (first :: rest) => if first = n then some rest else none
  | _ => none

end Table

end BlobVault.Text
