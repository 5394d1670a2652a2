import BlobVault.Text.Basic

/-!
# Domain labels outside ASCII

A label with characters outside ASCII is written as `xn--` followed by its basic characters and the
others as differences in variable-length digits of base 36.
-/

namespace BlobVault.Url.Punycode

/-- The digit of a value below 36. -/
def digit (d : Nat) : Char :=
  if d < 26 then Char.ofNat (97 + d) else Char.ofNat (22 + d)

/-- The weight limit of a digit position. -/
def threshold (k bias : Nat) : Nat :=
  if k ≤ bias then 1 else if bias + 26 ≤ k then 26 else k - bias

/-- Divides by 35 until at most 455 is left, and counts in steps of 36. -/
def adaptLoop (delta k : Nat) : Nat × Nat :=
  if 455 < delta then adaptLoop (delta / 35) (k + 36) else (delta, k)
termination_by delta
decreasing_by exact Nat.div_lt_self (by omega) (by omega)

/-- The bias after a difference. -/
def adapt (delta count : Nat) (first : Bool) : Nat :=
  let d := if first then delta / 700 else delta / 2
  let (rest, k) := adaptLoop (d + d / count) 0
  k + 36 * rest / (rest + 38)

theorem one_le_threshold (k bias : Nat) : 1 ≤ threshold k bias := by
  unfold threshold; split <;> (try split) <;> omega

/-- A difference in digits of variable length. -/
def digits (bias k q : Nat) : List Char :=
  let t := threshold k bias
  if q < t then [digit q]
  else digit (t + (q - t) % (36 - t)) :: digits bias (k + 36) ((q - t) / (36 - t))
termination_by q
decreasing_by
  have h := one_le_threshold k bias
  exact Nat.lt_of_le_of_lt (Nat.div_le_self _ _) (by omega)

/-- An encoding under way: what is written, the difference, the bias and how many characters are
done. -/
structure State where
  out : List Char
  delta : Nat
  bias : Nat
  done : Nat

/-- One character of the label, while the code point `m` is being written. -/
def visit (basic m : Nat) (s : State) (c : Char) : State :=
  if c.toNat < m then { s with delta := s.delta + 1 }
  else if c.toNat = m then
    { out := s.out ++ digits s.bias 36 s.delta, delta := 0
      bias := adapt s.delta (s.done + 1) (s.done = basic), done := s.done + 1 }
  else s

/-- Writes the code points one after another, in rising order. -/
def writeAll (label : List Char) (basic : Nat) : List Nat → Nat → State → State
  | [], _, s => s
  | m :: ms, n, s =>
    let s := label.foldl (visit basic m) { s with delta := s.delta + (m - n) * (s.done + 1) }
    writeAll label basic ms (m + 1) { s with delta := s.delta + 1 }

/-- The encoded form of a label. -/
def encode (label : List Char) : List Char :=
  let basic := label.filter (·.toNat < 128)
  let others := ((label.map Char.toNat).filter (128 ≤ ·)).mergeSort.eraseDups
  let n := basic.length
  let start := if n = 0 then [] else basic ++ ['-']
  (writeAll label n others 128 ⟨start, 0, 72, n⟩).out

/-! ## Reading -/

/-- The value of a digit, in either case. -/
def digitValue? (c : Char) : Option Nat :=
  if c.isLower then some (c.toNat - 97)
  else if c.isUpper then some (c.toNat - 65)
  else if c.isDigit then some (c.toNat - 22)
  else none

/-- Numbers from here on are refused. -/
def numberBound : Nat := UInt32.size

/-- Reads digits of variable length, from the position `k` on, where a digit has the weight `w`;
gives what they add to `i`, and what follows them. -/
def readNumber? (bias : Nat) : List Char → Nat → Nat → Nat → Option (Nat × List Char)
  | [], _, _, _ => none
  | c :: rest, k, w, i => do
    let d ← digitValue? c
    let i := i + d * w
    let t := threshold k bias
    if numberBound ≤ i then none
    else if d < t then some (i, rest)
    else if numberBound ≤ w * (36 - t) then none
    else readNumber? bias rest (k + 36) (w * (36 - t)) i

theorem length_of_readNumber? {bias : Nat} {cs : List Char} {k w i : Nat} {r : Nat × List Char}
    (h : readNumber? bias cs k w i = some r) : r.2.length < cs.length := by
  induction cs generalizing k w i with
  | nil => simp [readNumber?] at h
  | cons c rest ih =>
    simp only [readNumber?, Option.bind_eq_bind, Option.bind_eq_some_iff] at h
    obtain ⟨d, -, h⟩ := h
    split at h
    · simp at h
    · split at h
      · simp only [Option.some.injEq] at h
        simp [← h]
      · split at h
        · simp at h
        · exact Nat.lt_succ_of_lt (ih h)

/-- The character of a code point, if there is one. -/
def char? (n : Nat) : Option Char := if n.isValidChar then some (Char.ofNat n) else none

/-- Puts the characters of the code into the characters that are there already: `n` is the code
point of the last one put in, and `i` the place behind it. -/
def readAll? (cs : List Char) (n i bias : Nat) (out : List Char) : Option (List Char) :=
  if cs = [] then some out
  else
    match _h : readNumber? bias cs 36 1 i with
    | none => none
    | some (j, rest) => do
      let m := n + j / (out.length + 1)
      let place := j % (out.length + 1)
      let c ← char? m
      readAll? rest m (place + 1) (adapt (j - i) (out.length + 1) (i = 0))
        (out.take place ++ c :: out.drop place)
termination_by cs.length
decreasing_by exact length_of_readNumber? _h

/-- The label that a code stands for. The basic characters stand before the last hyphen. -/
def decode? (code : List Char) : Option (List Char) :=
  match Text.splitLast? '-' code with
  | some ([], _) => none
  | some (basic, rest) => readAll? rest 128 0 72 basic
  | none => readAll? code 128 0 72 []

end BlobVault.Url.Punycode
