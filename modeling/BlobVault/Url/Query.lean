import BlobVault.Text.Utf8
import BlobVault.Url.Basic

/-!
# Queries

A query is a list of names with values. In its text the pairs stand between ampersands, plus signs
stand for spaces, and other characters may be percent-encoded.
-/

namespace BlobVault.Url

/-- The URL with a longer query. -/
def addQuery (u : Url) (query : List Char) : Url :=
  match u.query? with
  | some (c :: q) => { u with query? := some (c :: q ++ '&' :: query) }
  | _ => { u with query? := some query }

/-- The text that a part of a query stands for. -/
def formText (cs : List Char) : String :=
  let spaced := cs.map fun c => if c = '+' then ' ' else c
  String.ofList (Text.decodeUtf8 (percentDecode (Bytes.ofText (String.ofList spaced))))

/-- The names and values of a query, in order. -/
def queryPairs (u : Url) : List (String × String) :=
  ((Text.pieces '&' (u.query?.getD [])).filter (· ≠ [])).map fun piece =>
    (formText (piece.takeWhile (· ≠ '=')), formText ((piece.dropWhile (· ≠ '=')).drop 1))

/-- The last value of a name. -/
def queryValue? (u : Url) (name : String) : Option String := u.queryPairs.reverse.lookup name

/-- Whether the query is one that asks for a listing. -/
def asksForListing (u : Url) : Bool := Text.occurs "comp=list".toList (u.query?.getD [])

end BlobVault.Url
