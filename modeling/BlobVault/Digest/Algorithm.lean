import BlobVault.Bytes
import BlobVault.Digest.Md5
import BlobVault.Digest.Sha256

/-!
# Digest algorithms

The two algorithms that derive a key from content, the shape of the keys they give, and a hasher
that takes the content in pieces. A digest key is the lowercase hexadecimal text of the digest.
-/

namespace BlobVault

/-- An algorithm that derives keys from content. -/
inductive DigestAlgorithm
  | md5
  | sha256
  deriving DecidableEq, Repr, Inhabited

namespace DigestAlgorithm

/-- The name of the algorithm in messages. -/
def name : DigestAlgorithm → String
  | md5 => "MD5"
  | sha256 => "SHA-256"

/-- The number of hexadecimal digits of a digest key. -/
def hexLength : DigestAlgorithm → Nat
  | md5 => 32
  | sha256 => 64

/-- The bytes of the digest of some content. -/
def digestBytes : DigestAlgorithm → Bytes → Bytes
  | md5, content => Md5.digest content
  | sha256, content => Sha256.digest content

/-- The digest key of some content. -/
def digest (algorithm : DigestAlgorithm) (content : Bytes) : String :=
  Hex.encode (algorithm.digestBytes content)

/-- Whether a text has the shape of a digest key: the right length and lowercase digits only. -/
def isDigest (algorithm : DigestAlgorithm) (key : String) : Bool :=
  key.toList.length == algorithm.hexLength && key.toList.all Hex.isLowerDigit

end DigestAlgorithm

/-- A digest in the making: the content seen so far. -/
structure Hasher where
  algorithm : DigestAlgorithm
  seen : Bytes := []

/-- The hasher after one more piece of content. -/
def Hasher.update (h : Hasher) (chunk : Bytes) : Hasher := { h with seen := h.seen ++ chunk }

/-- The digest key of everything seen. -/
def Hasher.finish (h : Hasher) : String := h.algorithm.digest h.seen

end BlobVault
