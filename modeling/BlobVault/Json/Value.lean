import BlobVault.Bytes

/-!
# JSON texts

Values, and a reader of texts. A number is told apart only as far as reports need it: a natural
number below 2 ^ 64 written with digits alone, or any other. A string may spell halves of surrogate
pairs that belong to no character; it is then a string without a text, which is good enough where
neither its value nor the field that it names is looked at.
-/

namespace BlobVault.Json

/-- A JSON value. -/
inductive Value
  | null
  | bool (b : Bool)
  | number (natural? : Option Nat)
  | string (text? : Option String)
  | array (items : List Value)
  | object (fields : List (Option String × Value))

/-- The blanks between tokens. -/
def isSpace (c : Char) : Bool := c = ' ' || c = '\t' || c = '\n' || c = '\r'

/-- The characters from the first token on. -/
def skipSpace (cs : List Char) : List Char := cs.dropWhile isSpace

/-! ## Strings -/

/-- The value of four hexadecimal digits, and what follows them. -/
def hexUnit? : List Char → Option (Nat × List Char)
  | a :: b :: c :: d :: r => do
    let n := (← Hex.value? a) * 4096 + (← Hex.value? b) * 256 + (← Hex.value? c) * 16 +
      (← Hex.value? d)
    return (n, r)
  | _ => none

/-- One character of a string, or one code unit of an escape. -/
inductive Piece
  | char (c : Char)
  | unit (n : Nat)

/-- The character that a backslash and a letter stand for. -/
def escaped? (c : Char) : Option Char :=
  if c = '"' ∨ c = '\\' ∨ c = '/' then some c
  else if c = 'b' then some (Char.ofNat 8)
  else if c = 'f' then some (Char.ofNat 12)
  else if c = 'n' then some '\n'
  else if c = 'r' then some '\r'
  else if c = 't' then some '\t'
  else none

/-- The pieces of a string up to its closing quote, and what follows it. The number bounds the
characters that are looked at. -/
def stringPieces? : Nat → List Char → Option (List Piece × List Char)
  | 0, _ => none
  | n + 1, cs =>
    match cs with
    | [] => none
    | '"' :: r => some ([], r)
    | '\\' :: 'u' :: r => do
      let (unit, rest) ← hexUnit? r
      let (ps, rest) ← stringPieces? n rest
      return (.unit unit :: ps, rest)
    | '\\' :: c :: r => do
      let e ← escaped? c
      let (ps, rest) ← stringPieces? n r
      return (.char e :: ps, rest)
    | c :: r =>
      if c.toNat < 0x20 ∨ c = '\\' then none
      else do
        let (ps, rest) ← stringPieces? n r
        return (.char c :: ps, rest)

/-- Whether a code unit is the first half of a pair. -/
def isHighHalf (n : Nat) : Bool := 0xD800 ≤ n && n < 0xDC00

/-- Whether a code unit is the second half of a pair. -/
def isLowHalf (n : Nat) : Bool := 0xDC00 ≤ n && n < 0xE000

/-- The characters of pieces; none if a half stands alone. -/
def charsOf? : List Piece → Option (List Char)
  | [] => some []
  | .char c :: r => (charsOf? r).map (c :: ·)
  | .unit a :: .unit b :: r =>
    if isHighHalf a then
      if isLowHalf b then
        (charsOf? r).map (Char.ofNat (0x10000 + (a - 0xD800) * 0x400 + (b - 0xDC00)) :: ·)
      else none
    else if isLowHalf a then none
    else (charsOf? (.unit b :: r)).map (Char.ofNat a :: ·)
  | .unit a :: r =>
    if isHighHalf a || isLowHalf a then none else (charsOf? r).map (Char.ofNat a :: ·)

/-- The text of a string whose opening quote is read, and what follows it. -/
def stringRest? (cs : List Char) : Option (Option String × List Char) := do
  let (pieces, rest) ← stringPieces? (cs.length + 1) cs
  return ((charsOf? pieces).map String.ofList, rest)

/-! ## Numbers -/

/-- Whether a character is a digit. -/
def isDigit (c : Char) : Bool := '0' ≤ c && c ≤ '9'

/-- Skips one digit or more. -/
def digits? (cs : List Char) : Option (List Char) :=
  match cs with
  | c :: r => if isDigit c then some (r.dropWhile isDigit) else none
  | [] => none

/-- Skips a fraction, if one is there. -/
def fraction? : List Char → Option (List Char)
  | '.' :: r => digits? r
  | cs => some cs

/-- Skips an exponent, if one is there. -/
def exponent? : List Char → Option (List Char)
  | c :: r =>
    if c = 'e' ∨ c = 'E' then
      match r with
      | '+' :: s => digits? s
      | '-' :: s => digits? s
      | s => digits? s
    else some (c :: r)
  | [] => some []

/-- The digits before the point, without needless zeros in front, and what follows them. -/
def whole? : List Char → Option (List Char × List Char)
  | '0' :: r => if r.head?.any isDigit then none else some (['0'], r)
  | c :: r =>
    if isDigit c then some ((c :: r).takeWhile isDigit, (c :: r).dropWhile isDigit) else none
  | [] => none

/-- A number without a sign, and what follows it. -/
def unsigned? (cs : List Char) : Option (Value × List Char) := do
  let (front, rest) ← whole? cs
  let afterFraction ← fraction? rest
  let afterNumber ← exponent? afterFraction
  let n := front.foldl (fun n c => 10 * n + (c.toNat - 48)) 0
  let natural? := if afterNumber.length = rest.length ∧ n < UInt64.size then some n else none
  return (.number natural?, afterNumber)

/-- A number, and what follows it. -/
def number? : List Char → Option (Value × List Char)
  | '-' :: r => (unsigned? r).map fun (_, rest) => (.number none, rest)
  | cs => unsigned? cs

/-! ## Values -/

/-- What follows a given beginning. -/
def expect? (front : List Char) (cs : List Char) : Option (List Char) :=
  if front.isPrefixOf cs then some (cs.drop front.length) else none

mutual

/-- A value, and what follows it. The number bounds the values that are read. -/
def value? : Nat → List Char → Option (Value × List Char)
  | 0, _ => none
  | n + 1, cs =>
    match skipSpace cs with
    | '"' :: r => do
      let (text?, rest) ← stringRest? r
      return (.string text?, rest)
    | '[' :: r =>
      match skipSpace r with
      | ']' :: rest => some (.array [], rest)
      | r => do
        let (items, rest) ← items? n r
        return (.array items, rest)
    | '\x7b' :: r =>
      match skipSpace r with
      | '\x7d' :: rest => some (.object [], rest)
      | r => do
        let (fields, rest) ← fields? n r
        return (.object fields, rest)
    | 't' :: r => do return (.bool true, ← expect? "rue".toList r)
    | 'f' :: r => do return (.bool false, ← expect? "alse".toList r)
    | 'n' :: r => do return (.null, ← expect? "ull".toList r)
    | r => number? r

/-- The items of an array up to its end, and what follows. -/
def items? : Nat → List Char → Option (List Value × List Char)
  | 0, _ => none
  | n + 1, cs => do
    let (v, rest) ← value? n cs
    match skipSpace rest with
    | ',' :: r => do
      let (vs, rest) ← items? n r
      return (v :: vs, rest)
    | ']' :: r => return ([v], r)
    | _ => none

/-- The fields of an object up to its end, and what follows. -/
def fields? : Nat → List Char → Option (List (Option String × Value) × List Char)
  | 0, _ => none
  | n + 1, cs => do
    match skipSpace cs with
    | '"' :: r => do
      let (name?, rest) ← stringRest? r
      match skipSpace rest with
      | ':' :: r => do
        let (v, rest) ← value? n r
        match skipSpace rest with
        | ',' :: r => do
          let (fs, rest) ← fields? n r
          return ((name?, v) :: fs, rest)
        | '\x7d' :: r => return ([(name?, v)], r)
        | _ => none
      | _ => none
    | _ => none

end

/-- The value of a whole text. -/
def parse? (text : String) : Option Value := do
  let cs := text.toList
  let (v, rest) ← value? (2 * cs.length + 2) cs
  if skipSpace rest = [] then return v else none

end BlobVault.Json
