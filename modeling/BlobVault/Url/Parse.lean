import BlobVault.Url.Path

/-!
# URLs of texts

`Url.parse?` reads a text as browsers do: schemes and domains in lower case, default ports dropped,
dot segments resolved, and characters percent-encoded where their part does not allow them. Tabs and
line breaks do not count.
-/

namespace BlobVault.Url

/-- What stands before and from the first character of a kind on. -/
def cut (p : Char → Bool) (cs : List Char) : List Char × List Char :=
  (cs.takeWhile (!p ·), cs.dropWhile (!p ·))

/-- The characters from the first that counts on. -/
def skipBreaks (cs : List Char) : List Char := cs.dropWhile isBreak

/-- Whether a character parts the segments of a special URL. -/
def isSlash (c : Char) : Bool := c == '/' || c == '\\'

/-- Whether a query or a fragment begins with a character. -/
def beginsTail (c : Char) : Bool := c == '?' || c == '#'

/-- The scheme of a text in lower case, and what follows its colon. -/
def scheme? (cs : List Char) : Option (List Char × List Char) :=
  let (front, rest) := cut (· == ':') cs
  let name := counted front
  if name.head?.any Char.isAlpha && !rest.isEmpty &&
      name.all fun c => c.isAlphanum || c == '+' || c == '-' || c == '.' then
    some (name.map Char.toLower, rest.tail)
  else none

/-! ## Queries and fragments -/

/-- The URL with the query and the fragment that a text states. -/
def withTails (u : Url) (cs : List Char) : Url :=
  let (front, hash) := cut (· == '#') (counted cs)
  let set := if isSpecial u.scheme then specialQuerySet else querySet
  { u with
    query? := front.head?.map fun _ => percentEncode set front.tail
    fragment? := hash.head?.map fun _ => percentEncode fragmentSet hash.tail }

/-! ## Authorities -/

/-- User name and password as they are kept. -/
def userinfoOf (cs : List Char) : List Char :=
  let (name, rest) := cut (· == ':') cs
  let password := percentEncode userinfoSet rest.tail
  let name := percentEncode userinfoSet name
  if name = [] ∧ password = [] then []
  else if password = [] then name ++ ['@']
  else name ++ ':' :: (password ++ ['@'])

/-- What stands before and from the first colon outside brackets on. -/
def splitHost : Bool → List Char → List Char × List Char
  | _, [] => ([], [])
  | inside, c :: r =>
    if c = ':' ∧ !inside then ([], c :: r)
    else
      let (host, rest) := splitHost (c == '[' || (inside && c ≠ ']')) r
      (c :: host, rest)

/-- The port that a text states behind a host, as it is kept, and what follows it. Only a path may
follow, or nothing. -/
def portBehind? (scheme : List Char) : List Char → Option (Option Nat × List Char)
  | ':' :: r => do
    let digits := r.takeWhile Text.isDigit
    let rest := r.drop digits.length
    let n := Text.digitsValue digits
    if 65536 ≤ n ∨ !rest.head?.all isSlash then none
    return (if digits = [] then none else keptPort scheme n, rest)
  | rest => some (none, rest)

/-- The user information of an authority, and what follows it. -/
def splitUserinfo (authority : List Char) : List Char × List Char :=
  match Text.splitLast? '@' authority with
  | some (front, back) => (userinfoOf front, back)
  | none => ([], authority)

/-- The path behind an authority, without the slash that it begins with. A special URL always has
segments. -/
def pathAfterHost (scheme : List Char) (cs : List Char) : List (List Char) :=
  let segments := fun cs => (pathRules scheme).resolve [] (pathPieces scheme cs)
  match skipBreaks cs with
  | [] => if isSpecial scheme then segments [] else []
  | c :: r => if c = '/' ∨ (isSpecial scheme ∧ isSlash c) then segments r else segments (c :: r)

/-- A URL with the authority and the path in a text. -/
def withAuthority? (scheme : List Char) (cs : List Char) : Option Url := do
  let special := isSpecial scheme
  let ends := fun c => c == '/' || beginsTail c || (special && isSlash c)
  let (front, rest) := cut ends cs
  let authority := counted front
  if authority = ['@'] ∧ rest ≠ [] then none
  let (userinfo, address) := splitUserinfo authority
  let (hostText, portText) := splitHost false address
  if hostText = [] ∧ (special ∨ userinfo ≠ [] ∨ portText ≠ []) then none
  let host ← if special then specialHost? hostText else otherHost? hostText
  let (port?, more) ← portBehind? scheme portText
  let (path, after) := cut beginsTail (more ++ rest)
  let url : Url := { scheme, userinfo, host? := some host, port?
                     path := .segments (pathAfterHost scheme path) }
  return url.withTails after

/-! ## Local files -/

/-- The host of a URL of a local file and the path that follows it, without its first slash if the
host has a name. A drive letter is no host but begins the path. -/
def fileHost? (cs : List Char) : Option (List Char × List Char) := do
  let (front, rest) := cut (fun c => isSlash c || beginsTail c) cs
  let hostText := counted front
  if isDrive hostText then return ([], cs)
  if hostText = [] then return ([], rest)
  let host ← specialHost? hostText
  if host = "localhost".toList then return ([], rest)
  return (host, if rest.head?.any isSlash then rest.tail else rest)

/-- The host and the path of what follows the scheme of a URL of a local file. -/
def fileParts? (cs : List Char) : Option (List Char × List Char) :=
  match skipBreaks cs with
  | a :: r =>
    if isSlash a then
      match skipBreaks r with
      | b :: s => if isSlash b then fileHost? s else some ([], b :: s)
      | [] => some ([], [])
    else some ([], a :: r)
  | [] => some ([], [])

/-- A URL of a local file. A path that begins with a drive letter has no host. -/
def ofFile? (scheme : List Char) (cs : List Char) : Option Url := do
  let (host, rest) ← fileParts? cs
  let (path, after) := cut beginsTail rest
  let rules := pathRules scheme
  let pieces := pathPieces scheme path
  let url : Url := { scheme, host? := some (if rules.beginsWithDrive pieces then [] else host)
                     path := .segments (rules.kept (rules.resolve [] pieces)) }
  return url.withTails after

/-! ## Other URLs -/

/-- A URL without an authority. -/
def withoutAuthority (scheme : List Char) (cs : List Char) : Url :=
  let (path, after) := cut beginsTail cs
  let url : Url := match skipBreaks path with
    | '/' :: r =>
      let segments := (pathRules scheme).resolve [] (pathPieces scheme r)
      { scheme, shielded := segments.length > 1 && segments.head? == some []
        path := .segments segments }
    | r => { scheme, path := .whole (percentEncode [] (counted r)) }
  url.withTails after

/-- The URL of what follows a scheme that is not special. -/
def ofOther? (scheme : List Char) (cs : List Char) : Option Url :=
  match skipBreaks cs with
  | '/' :: r =>
    match skipBreaks r with
    | '/' :: s => withAuthority? scheme s
    | _ => some (withoutAuthority scheme cs)
  | _ => some (withoutAuthority scheme cs)

/-- The URL that a text stands for. Controls and spaces around it do not count. -/
def parse? (text : String) : Option Url := do
  let outer := fun c : Char => c.toNat ≤ 0x20
  let trimmed := ((text.toList.dropWhile outer).reverse.dropWhile outer).reverse
  let (scheme, rest) ← scheme? trimmed
  if isFile scheme then ofFile? scheme rest
  else if isSpecial scheme then
    withAuthority? scheme (rest.dropWhile fun c => isSlash c || isBreak c)
  else ofOther? scheme rest

end BlobVault.Url
