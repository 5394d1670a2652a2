import BlobVault.Url.Address
import BlobVault.Url.Domain.Label
import BlobVault.Url.Percent

/-!
# Hosts

The host of a URL with a special scheme is a domain, an IPv4 or an IPv6 address; the host of any
other URL is a text without the characters that delimit the parts of a URL.
-/

namespace BlobVault.Url

/-- The text between brackets, if the characters are in brackets. -/
def bracketed? : List Char → Option (List Char)
  | '[' :: r => if r.getLast? = some ']' then some r.dropLast else none
  | _ => none

/-- The IPv6 address in brackets that a text stands for. -/
def bracketedHost? (text : List Char) : Option (List Char) := do
  let groups ← ipv6Value? (← bracketed? text)
  return '[' :: (ipv6Text groups ++ [']'])

/-- The domain or the IPv4 address that a text stands for. -/
def domainHost? (text : List Char) : Option (List Char) := do
  let decoded ← String.fromUTF8? ⟨(percentDecode (Bytes.ofText (String.ofList text))).toArray⟩
  let domain ← domainToAscii? decoded.toList
  if domain = [] then none
  if endsInNumber domain then (ipv4Value? domain).map ipv4Text else some domain

/-- The host of a URL with a special scheme, in its standard form. -/
def specialHost? (text : List Char) : Option (List Char) :=
  if text.head? = some '[' then bracketedHost? text else domainHost? text

/-- The host of any other URL, in its standard form. -/
def otherHost? (text : List Char) : Option (List Char) :=
  if text.head? = some '[' then bracketedHost? text
  else if text.any forbiddenHostChars.contains then none
  else some (percentEncode [] text)

end BlobVault.Url
