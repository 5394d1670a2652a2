import BlobVault.Digest.Algorithm
import BlobVault.Text.Quoted

/-!
# Errors

Everything that can go wrong, as causes. `BlobError.message` is the one place where causes become
text. That a blob is absent is never an error: look-ups answer that with a value.
-/

namespace BlobVault

/-- What the local file system refuses; `other` carries a text of its own. -/
inductive IoError
  | notFound
  | isADirectory
  | notADirectory
  | permissionDenied
  | invalidFilename
  | other (text : String)
  deriving DecidableEq, Repr

/-- What a container answers when a request fails; the path is that of the object in question. -/
inductive ContainerError
  | generic
  | notFound (path : String)
  | alreadyExists (path : String)
  | denied (path : String)
  deriving DecidableEq, Repr

/-- The cause of a failure of the backend. -/
inductive BackendError
  | container (error : ContainerError)
  | client (text : String)
  deriving DecidableEq, Repr

/-- Why a request is refused. -/
inductive RequestError
  | malformedDigest (key : String) (algorithm : DigestAlgorithm)
  | malformedKey (key : String)
  | foreignPass (pass collector : String)
  | keyRequired (provider : String)
  | unknownScroll (name : String)
  | reported (text : String)
  deriving DecidableEq, Repr

/-- Why a configuration is refused. -/
inductive ConfigError
  | unsupportedDigest (name : String)
  | missing (property : String) (fallback? : Option String)
  | malformed (property value : String)
  | outOfRange (property value : String)
  | malformedHost (host : String)
  | reported (text : String)
  deriving DecidableEq, Repr

/-- The failure of an operation on blobs. -/
inductive BlobError
  | invalid (cause : RequestError)
  | config (cause : ConfigError)
  | unsupported
  | missingKey
  | noSuchElement
  | backend (cause : BackendError)
  | io (cause : IoError)
  deriving DecidableEq, Repr

/-- The text of a file system error. -/
def IoError.text : IoError → String
  | notFound => "No such file or directory"
  | isADirectory => "Is a directory"
  | notADirectory => "Not a directory"
  | permissionDenied => "Permission denied"
  | invalidFilename => "File name too long"
  | other text => text

/-- The text of a container error. -/
def ContainerError.text : ContainerError → String
  | generic => "Generic Container error: injected"
  | notFound path => "Object at location " ++ path ++ " not found: injected"
  | alreadyExists path => "Object at location " ++ path ++ " already exists: injected"
  | denied path =>
    "The operation lacked the necessary privileges to complete for path " ++ path ++ ": injected"

/-- The text of a backend failure. -/
def BackendError.text : BackendError → String
  | container error => error.text
  | client text => text

/-- The reason of a refused request. -/
def RequestError.text : RequestError → String
  | malformedDigest key algorithm =>
    "Key " ++ Text.quoted key ++ " is not a valid " ++ algorithm.name ++ " digest"
  | malformedKey key => "Invalid opaque key: " ++ Text.quoted key
  | foreignPass pass collector =>
    "GC pass for " ++ pass ++ " cannot be swept by " ++ collector
  | keyRequired provider => "Provider " ++ provider ++ " needs an explicit key for every write"
  | unknownScroll name => "Unknown scroll: " ++ name
  | reported text => text

/-- The reason of a refused configuration. -/
def ConfigError.text : ConfigError → String
  | unsupportedDigest name => "Unsupported digest algorithm: " ++ name
  | missing property none => "missing " ++ property
  | missing property (some name) =>
    "missing " ++ property ++ " (or " ++ name ++ " in the environment)"
  | malformed property value => "invalid " ++ property ++ ": " ++ value
  | outOfRange property value => property ++ " out of range: " ++ value
  | malformedHost host => "Invalid CDN host: " ++ host
  | reported text => text

namespace BlobError

/-- The message of an error. -/
def message : BlobError → String
  | invalid cause => "Invalid request: " ++ cause.text
  | config cause => "Invalid configuration: " ++ cause.text
  | unsupported => "Operation not supported by this store"
  | missingKey => "Missing key: the write completed without producing a key"
  | noSuchElement => "No more elements"
  | backend cause => "Storage backend error: " ++ cause.text
  | io cause => "I/O error: " ++ cause.text

/-- The text of the error that this one wraps, if it wraps one. -/
def source? : BlobError → Option String
  | backend cause => some cause.text
  | io cause => some cause.text
  | _ => none

/-- Whether the backend failed. -/
def isBackend : BlobError → Bool
  | backend _ => true
  | _ => false

end BlobError

end BlobVault
