import Std.Data.ExtTreeMap
import BlobVault.Cache
import BlobVault.KeyStrategy
import BlobVault.Namespace

/-!
# Configuration of a provider

`Config.ofProperties` reads the properties of a provider. A property counts only if something is
left of it when it is trimmed. The account comes from the properties when they hold its key, else
both its name and its key come from the environment. The reader stops at the first property that it
has to refuse.
-/

namespace BlobVault

open Std (ExtTreeMap)

/-- Settings of a local cache. -/
structure CachingConfig where
  /-- The directory; none stands for the standard one. -/
  dir? : Option String := none
  limits : CacheLimits
  deriving Repr

namespace CachingConfig

/-- The minimum age unless another is asked for, in seconds. -/
def defaultMinAge : Nat := 3600

/-- One hundred megabytes, ten thousand files, one hour. -/
def defaultLimits : CacheLimits := ⟨104857600, 10000, seconds defaultMinAge⟩

/-- The cache that is used unless another is asked for. -/
def standard : CachingConfig := { limits := defaultLimits }

/-- The cache that is described, where the standard directory is a given one. -/
def toCache (standardDir : String) (c : CachingConfig) : FileCache :=
  ⟨c.dir?.getD standardDir, c.limits⟩

end CachingConfig

/-- The configuration of a provider. -/
structure Config where
  accountName : String
  accountKey : String
  container : String
  endpointProtocol : String := "https"
  endpoint? : Option String := none
  /-- The beginning of all paths: empty, or closed with the path delimiter. -/
  root : String := ""
  cdnHost? : Option String := none
  allowsRange : Bool := false
  directDownload : Bool := false
  /-- In seconds. -/
  directDownloadExpire : Nat := 3600
  digest : DigestAlgorithm := .md5
  caching? : Option CachingConfig := some .standard
  deriving Repr

/-- Named texts. -/
abbrev Properties := ExtTreeMap String String

/-! ## Values -/

/-- Whether a text says yes. -/
def readFlag (value? : Option String) : Bool := value?.any (Text.sameIgnoringCase · "true")

/-- The 64-bit number that a property states. -/
def readNumber (property value : String) : Except BlobError Nat :=
  match Text.decimalBelow? UInt64.size value.toList with
  | some n => .ok n
  | none => .error (.config (.malformed property value))

/-- The property with the size of the cache. -/
def cacheSizeProperty : String := "cachesize"

/-- The number of bytes of a unit, which may be left out. -/
def unitSize? (unit : List Char) : Option Nat :=
  if unit = [] ∨ unit = ['B'] then some 1
  else if unit = ['K'] ∨ unit = ['K', 'B'] then some 1024
  else if unit = ['M'] ∨ unit = ['M', 'B'] then some (1024 * 1024)
  else if unit = ['G'] ∨ unit = ['G', 'B'] then some (1024 * 1024 * 1024)
  else none

/-- The number of bytes that a text states: digits, perhaps blanks, perhaps a unit in any case. -/
def readSize (value : String) : Except BlobError Nat :=
  let chars := (Text.trimChars value.toList).map Char.toUpper
  let digits := chars.takeWhile Text.isDigit
  match unitSize? (Text.trimChars (chars.dropWhile Text.isDigit)) with
  | none => .error (.config (.malformed cacheSizeProperty value))
  | some unit =>
    match readNumber cacheSizeProperty (String.ofList digits) with
    | .error e => .error e
    | .ok n =>
      if n * unit < UInt64.size then .ok (n * unit)
      else .error (.config (.outOfRange cacheSizeProperty value))

/-! ## Reading properties -/

/-- The environment variable with the name of the account. -/
def accountVariable : String := "AZURE_STORAGE_ACCOUNT"

/-- The environment variable with the key of the account. -/
def accountKeyVariable : String := "AZURE_STORAGE_ACCESS_KEY"

/-- The trimmed text of a property, if anything is left of it. -/
def Properties.value? (p : Properties) (name : String) : Option String :=
  (p[name]?.map Text.trim).filter (· ≠ "")

/-- A value that has to be there. -/
def demand (value? : Option String) (property : String) (fallback? : Option String) :
    Except BlobError String :=
  match value? with
  | some v => .ok v
  | none => .error (.config (.missing property fallback?))

namespace Config

/-- The name and the key of the account: both from the properties or both from the environment. -/
def account (p : Properties) (env : String → Option String) : Option String × Option String :=
  match p.value? "account.key" with
  | some key => (p.value? "account.name", some key)
  | none => (env accountVariable, env accountKeyVariable)

/-- The beginning of all paths: the prefix, then the namespace. -/
def rootOf (p : Properties) : String :=
  let base := Namespace.normalize ((p.value? "prefix").getD "")
  match p.value? "namespace" with
  | some name => Namespace.normalize (base ++ name)
  | none => base

/-- A number that a property may state. -/
def numberOr (p : Properties) (property : String) (other : Nat) : Except BlobError Nat :=
  match p.value? property with
  | some v => readNumber property v
  | none => .ok other

/-- The cache, unless the properties switch it off. -/
def cachingOf (p : Properties) : Except BlobError (Option CachingConfig) := do
  if readFlag (p.value? "nocache") then return none
  let standard := CachingConfig.defaultLimits
  let maxSize ← match p.value? cacheSizeProperty with
    | some v => readSize v
    | none => .ok standard.maxSize
  let maxCount ← numberOr p "cachecount" standard.maxCount
  let minAge ← numberOr p "cacheminage" CachingConfig.defaultMinAge
  return some { dir? := p.value? "cachedir", limits := ⟨maxSize, maxCount, seconds minAge⟩ }

/-- The configuration that properties and environment describe. -/
def ofProperties (p : Properties) (env : String → Option String) : Except BlobError Config := do
  let (name?, key?) := account p env
  let accountName ← demand name? "account.name" (some accountVariable)
  let accountKey ← demand key? "account.key" (some accountKeyVariable)
  let container ← demand (p.value? "container") "container" none
  let expire ← numberOr p "directdownload.expire" 3600
  let digest ← match p.value? "digest" with
    | some v => DigestAlgorithm.ofName v
    | none => .ok .md5
  let caching? ← cachingOf p
  return {
    accountName, accountKey, container
    endpointProtocol := (p.value? "endpointProtocol").getD "https"
    endpoint? := p.value? "endpoint"
    root := rootOf p
    cdnHost? := p.value? "cdn.host"
    allowsRange := readFlag (p.value? "allowByteRange")
    directDownload := readFlag (p.value? "directdownload")
    directDownloadExpire := expire
    digest, caching? }

/-! ## Building a configuration -/

/-- The configuration with another beginning of all paths. -/
def withRoot (c : Config) (text : String) : Config := { c with root := Namespace.normalize text }

/-- The configuration with signed URLs for direct downloads, valid for some seconds. -/
def withDirectDownload (c : Config) (expire : Nat) : Config :=
  { c with directDownload := true, directDownloadExpire := expire }

end Config

end BlobVault
