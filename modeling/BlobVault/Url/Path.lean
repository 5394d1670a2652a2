import BlobVault.Url.Basic

/-!
# Segments of paths

A path is read piece by piece. A piece of one dot stands for the level it is on and one of two dots
for the level above; a drive letter is a level that no dots lead out of. Tabs and line breaks do not
count.
-/

namespace BlobVault.Url

/-! ## Tabs and line breaks -/

/-- Whether a character does not count in a URL. -/
def isBreak (c : Char) : Bool := c == '\t' || c == '\n' || c == '\r'

/-- The characters that count. -/
def counted (cs : List Char) : List Char := cs.filter (!isBreak ·)

/-! ## Kinds of segments -/

/-- Whether a segment stands for the present level. -/
def isSingleDot (segment : List Char) : Bool :=
  segment = ['.'] || segment.map Char.toLower = ['%', '2', 'e']

/-- Whether a segment stands for the level above. -/
def isDoubleDot (segment : List Char) : Bool :=
  [['.', '.'], ['.', '%', '2', 'e'], ['%', '2', 'e', '.'], ['%', '2', 'e', '%', '2', 'e']].contains
    (segment.map Char.toLower)

/-- Whether a letter and a sign name a drive. -/
def namesDrive (a b : Char) : Bool := a.isAlpha && (b == ':' || b == '|')

/-- Whether a segment is a drive letter. -/
def isDrive : List Char → Bool
  | [a, b] => namesDrive a b
  | _ => false

/-- Whether a segment is a level that no dots lead out of: a drive letter, which may end at a
backslash. -/
def isKept : List Char → Bool
  | a :: b :: r => namesDrive a b && r.head?.all (· == '\\')
  | _ => false

/-- A drive letter with its colon. -/
def settledDrive (segment : List Char) : List Char := segment.take 1 ++ [':']

/-- The drive letter of a piece that goes on behind a tab or a line break, and what it goes on with.
-/
def brokenDrive? (piece : List Char) : Option (List Char × List Char) :=
  match counted piece, piece.dropWhile (· ≠ ':') with
  | a :: ':' :: c :: r, ':' :: b :: _ =>
    if a.isAlpha && isBreak b then some ([a, ':'], c :: r) else none
  | _, _ => none

/-! ## Levels -/

/-- How the segments of a URL are read: whether it names a local file, and which characters they may
not hold as they are. -/
structure PathRules where
  file : Bool
  set : List Char

namespace PathRules

/-- The segment of a piece. -/
def segment (rules : PathRules) (piece : List Char) : List Char :=
  percentEncode rules.set (counted piece)

/-- The levels above the last one. -/
def leave : List (List Char) → List (List Char)
  | [] => []
  | s :: before => if isKept s then s :: before else before

/-- The segments of pieces. The segments before are given in reverse; after dots at the end the path
ends with a slash. The first segment of the path of a local file may be a drive letter, then with a
colon, and a tab or a line break behind it ends the segment. -/
def resolve (rules : PathRules) : List (List Char) → List (List Char) → List (List Char)
  | before, [] => before.reverse
  | before, piece :: rest =>
    let s := rules.segment piece
    let atStart := rules.file && before.isEmpty
    if isDoubleDot s then
      if rest = [] then ([] :: leave before).reverse else resolve rules (leave before) rest
    else if isSingleDot s then
      if rest = [] then ([] :: before).reverse else resolve rules before rest
    else
      match if atStart then brokenDrive? piece else none with
      | some (drive, more) => resolve rules (rules.segment more :: drive :: before) rest
      | none => resolve rules ((if atStart && isDrive s then settledDrive s else s) :: before) rest

/-- Whether the first segment of pieces is a drive letter. -/
def beginsWithDrive (rules : PathRules) (pieces : List (List Char)) : Bool :=
  ((pieces.map rules.segment).find? fun s => !isSingleDot s && !isDoubleDot s).any isDrive

/-- The segments as they are kept: the path of a local file does not begin with empty ones, but is
not empty either. -/
def kept (rules : PathRules) (segments : List (List Char)) : List (List Char) :=
  if rules.file then
    match segments.dropWhile (· = []) with
    | [] => [[]]
    | rest => rest
  else segments

end PathRules

/-- The rules for the path of a text. -/
def pathRules (scheme : List Char) : PathRules := ⟨isFile scheme, pathSet⟩

/-- The rules for a segment that is added on its own. -/
def segmentRules (scheme : List Char) : PathRules :=
  ⟨isFile scheme, if isSpecial scheme then specialSegmentSet else segmentSet⟩

/-- The pieces of a path between slashes; the special schemes take backslashes for slashes. -/
def pathPieces (scheme : List Char) (cs : List Char) : List (List Char) :=
  Text.pieces '/' (if isSpecial scheme then cs.map fun c => if c = '\\' then '/' else c else cs)

/-- The URL with one more segment. Dots are left out, unless tabs or line breaks hide them. -/
def push (u : Url) (segment : List Char) : Url :=
  match u.path with
  | .whole _ => u
  | .segments parts =>
    if segment = ['.'] ∨ segment = ['.', '.'] then u
    else
      let rules := segmentRules u.scheme
      let before := if parts = [[]] then [] else parts.reverse
      { u with path := .segments (rules.kept (rules.resolve before [segment])) }

end BlobVault.Url
