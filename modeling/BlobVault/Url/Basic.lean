import BlobVault.Url.Host

/-!
# URLs

An absolute URL as its parts, its text, and the two changes that are made to one: another host, and
another port.
-/

namespace BlobVault

/-- The path of a URL: segments, or one text that has none. -/
inductive UrlPath
  | segments (parts : List (List Char))
  | whole (text : List Char)
  deriving DecidableEq, Repr

/-- An absolute URL. -/
structure Url where
  scheme : List Char
  /-- User name and password, with the sign that closes them. -/
  userinfo : List Char := []
  /-- What stands behind two slashes, which may be nothing; none if there are no two slashes. -/
  host? : Option (List Char) := none
  port? : Option Nat := none
  /-- Whether a slash and a dot stand before the path, so that two slashes at its start are not
  taken for those before a host. -/
  shielded : Bool := false
  path : UrlPath
  query? : Option (List Char) := none
  fragment? : Option (List Char) := none
  deriving DecidableEq, Repr

namespace Url

/-- The special schemes with their default ports. -/
def defaultPorts : List (String × Option Nat) :=
  [("http", some 80), ("https", some 443), ("ws", some 80), ("wss", some 443), ("ftp", some 21),
    ("file", none)]

/-- Whether a scheme is special. -/
def isSpecial (scheme : List Char) : Bool := defaultPorts.any fun (name, _) => name.toList = scheme

/-- Whether a scheme is that of local files. -/
def isFile (scheme : List Char) : Bool := scheme = "file".toList

/-- The default port of a scheme. -/
def defaultPort? (scheme : List Char) : Option Nat :=
  (defaultPorts.find? fun (name, _) => name.toList = scheme).bind Prod.snd

/-- The port as it is kept: none where it is the default. -/
def keptPort (scheme : List Char) (port : Nat) : Option Nat :=
  if defaultPort? scheme = some port then none else some port

/-- The host, if one is named. -/
def hostName? (u : Url) : Option (List Char) := u.host?.filter (· ≠ [])

/-! ## Text -/

/-- The text of a path. -/
def pathChars : UrlPath → List Char
  | .segments parts => parts.flatMap fun p => '/' :: p
  | .whole text => text

/-- The characters of a URL. -/
def chars (u : Url) : List Char :=
  let authority := match u.host? with
    | some host =>
      '/' :: '/' :: (u.userinfo ++ host ++
        (match u.port? with
        | some port => ':' :: Text.decimalChars port
        | none => []))
    | none => []
  let shield := if u.shielded then ['/', '.'] else []
  let query := match u.query? with
    | some q => '?' :: q
    | none => []
  let fragment := match u.fragment? with
    | some f => '#' :: f
    | none => []
  u.scheme ++ ':' :: (authority ++ shield ++ pathChars u.path ++ query ++ fragment)

/-- The text of a URL. -/
def text (u : Url) : String := String.ofList u.chars

/-! ## Changes -/

/-- The URL with another host. A host may not be given to a URL that has no segments or names a
local file; of a text with a colon outside brackets only what stands before it counts. -/
def withHost? (u : Url) (host : List Char) : Option Url := do
  if let .whole _ := u.path then none
  if isFile u.scheme then none
  if host.head? = some ':' then none
  let name := if (bracketed? host).isSome then host else host.takeWhile (· ≠ ':')
  let h ← if isSpecial u.scheme then specialHost? name else otherHost? name
  return { u with host? := some h }

/-- The URL with another port, or with none. A port stands where the shield of a path would. -/
def withPort? (u : Url) (port? : Option Nat) : Option Url := do
  let _ ← u.hostName?
  if isFile u.scheme then none
  let kept? := port?.bind (keptPort u.scheme)
  return { u with port? := kept?, shielded := u.shielded && kept?.isNone }

end Url

end BlobVault
