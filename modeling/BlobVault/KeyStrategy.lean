import BlobVault.Error
import BlobVault.Range
import BlobVault.Text.Basic

/-!
# Key strategies

A store derives keys from content (`digest`) or takes them from the caller (`supplied`). A strategy
decides which keys may address a store.
-/

namespace BlobVault

/-- The algorithm that a text names: without regard to case and surrounding blanks. -/
def DigestAlgorithm.ofName (text : String) : Except BlobError DigestAlgorithm :=
  let name := Text.asciiUpper (Text.trim text)
  if name = "MD5" then .ok .md5
  else if name = "SHA-256" ∨ name = "SHA256" then .ok .sha256
  else .error (.config (.unsupportedDigest name))

/-- Where the keys of a store come from. -/
inductive KeyStrategy
  | digest (algorithm : DigestAlgorithm)
  | supplied
  deriving DecidableEq, Repr

namespace KeyStrategy

/-- The algorithm of a digest strategy. -/
def algorithm? : KeyStrategy → Option DigestAlgorithm
  | digest algorithm => some algorithm
  | supplied => none

/-- Whether equal content is stored once. -/
def deduplicates (s : KeyStrategy) : Bool := s.algorithm?.isSome

/-- Whether a supplied key may address a store: it is not empty and holds neither the path
delimiter nor the range separator. -/
def isPlainKey (key : String) : Bool :=
  key.toList ≠ [] && !key.toList.contains '/' && !key.toList.contains rangeSeparator

/-- Refuses the keys that may not address a store with this strategy. -/
def validate : KeyStrategy → String → Except BlobError Unit
  | digest algorithm, key =>
    if algorithm.isDigest key then .ok () else .error (.invalid (.malformedDigest key algorithm))
  | supplied, key =>
    if isPlainKey key then .ok () else .error (.invalid (.malformedKey key))

end KeyStrategy

end BlobVault
