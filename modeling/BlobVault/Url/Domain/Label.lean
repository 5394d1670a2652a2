import BlobVault.Text.Composed
import BlobVault.Url.Domain.Direction
import BlobVault.Url.Domain.Joiner
import BlobVault.Url.Domain.Mapping
import BlobVault.Url.Punycode

/-!
# Domains in ASCII

A domain is brought into ASCII label by label. The characters are mapped and composed first; a label
that is then still outside ASCII is written in Punycode, and one that is in Punycode already has to
stand for a label that the mapping leaves as it is.
-/

namespace BlobVault.Url

/-- Characters that no host may hold. -/
def forbiddenHostChars : List Char :=
  ['\x00', '\t', '\n', '\r', ' ', '#', '/', ':', '<', '>', '?', '@', '[', '\\', ']', '^', '|']

/-- Whether a domain may not hold a character. -/
def isForbiddenInDomain (c : Char) : Bool :=
  c.toNat ≤ 0x20 || c.toNat == 0x7F || c == '%' || forbiddenHostChars.contains c

/-- Whether a character is one of ASCII. -/
def isAscii (c : Char) : Bool := c.toNat < 0x80

/-- How a label in Punycode begins. -/
def punycodeSign : List Char := ['x', 'n', '-', '-']

/-- The longest Punycode that is read. -/
def maxPunycode : Nat := 2000

/-- The longest label outside ASCII that is written in Punycode. -/
def maxForeignLabel : Nat := 1000

/-- A label of a domain: what it stands for, and its form in ASCII. -/
structure DomainLabel where
  meant : List Char
  ascii : List Char
  deriving DecidableEq, Repr

/-- Whether characters stand for themselves together. -/
def isSettled (cs : List Char) : Bool :=
  cs.all (fun c => mapChar? c == some [c]) && Text.composed cs == cs

/-- Whether a label may stand in a domain. -/
def isAllowedLabel (cs : List Char) : Bool :=
  !cs.any isForbiddenInDomain && !cs.head?.any Text.isMark && allowsJoiners [] cs &&
    (cs.all isAscii || cs.length ≤ maxForeignLabel)

/-- What Punycode stands for in a label: characters that are settled and allowed, and not all of
ASCII. -/
def readPunycode? (code : List Char) : Option (List Char) := do
  if code.getLast? = some '-' ∨ maxPunycode < code.length ∨ !code.all isAscii then none
  let cs ← Punycode.decode? code
  if isSettled cs && !cs.all isAscii then some cs else none

namespace DomainLabel

/-- The label of characters that are mapped and composed. -/
def ofChars? (cs : List Char) : Option DomainLabel := do
  let label ← match Text.dropFront? punycodeSign cs with
    | some code => (readPunycode? code).map fun meant => ⟨meant, cs⟩
    | none => some ⟨cs, if cs.all isAscii then cs else punycodeSign ++ Punycode.encode cs⟩
  if isAllowedLabel label.meant then some label else none

end DomainLabel

/-- The labels of a domain. -/
def domainLabels? (domain : List Char) : Option (List DomainLabel) := do
  let labels ← (Text.pieces '.' (Text.composed (← mapChars? domain))).mapM DomainLabel.ofChars?
  let meant := labels.map DomainLabel.meant
  if meant.any runsLeft && !meant.all hasOneDirection then none else some labels

/-- A domain in ASCII. -/
def domainToAscii? (domain : List Char) : Option (List Char) :=
  (domainLabels? domain).map fun labels =>
    List.intercalate ['.'] (labels.map DomainLabel.ascii)

end BlobVault.Url
