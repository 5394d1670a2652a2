import BlobVault.Base64
import BlobVault.Config
import BlobVault.Store.Basic
import BlobVault.Url.Parse
import BlobVault.Url.Query

/-!
# Signed URLs

A signer gives a URL that lets its holder read one object for some time. The service of an account
is reached at the account's own host unless the configuration names an endpoint; its URLs carry the
grant as query parameters. An endpoint whose own query asks for a listing gets a grant for the whole
container. Times count from the moment of signing, and the signature is left out.
-/

namespace BlobVault

/-- The query of a grant for some seconds: to read one object, or to read and list a container. -/
def grantQuery (listing : Bool) (expire : Nat) : String :=
  let (permission, resource) := if listing then ("rl", "c") else ("r", "b")
  "sv=&sp=" ++ permission ++ "&st=0&se=" ++ toString expire ++ "&sr=" ++ resource ++ "&sig="

namespace Signer

/-- The URL for an object, valid for some seconds. -/
def sign (s : Signer) (path : ObjectPath) (expire : Nat) : Except BlobError Url :=
  match s with
  | .failing => .error (.backend (.container .generic))
  | .static base =>
    match Url.parse? (base ++ "/" ++ path.text ++ "?se=" ++ toString expire ++ "&sig=abc") with
    | some url => .ok url
    | none => .error (.backend (.container .generic))
  | .account service container =>
    let url := (container.toList :: path.segments).foldl Url.push service
    .ok (url.addQuery (grantQuery url.asksForListing expire).toList)

end Signer

/-- The URL for a key, if the store can sign. -/
def RemoteStore.signedUrl (r : RemoteStore) (key : String) (expire : Nat) : Except BlobError Url :=
  match r.signer? with
  | some s => s.sign (r.pathFor key) expire
  | none => .error .unsupported

/-- The service of the account of a configuration. -/
def Config.service? (c : Config) : Option Url :=
  Url.parse? (c.endpoint?.getD ("https://" ++ c.accountName ++ ".blob.core.windows.net"))

/-- The remote store of a configuration. The service needs a URL, and the account a key in
Base64. -/
def RemoteStore.ofConfig (name : String) (c : Config) (tempDir : TempDir) :
    Except BlobError RemoteStore :=
  match c.service?, Base64.decode? c.accountKey with
  | some service, some _ => .ok {
      name, tempDir
      location := ⟨c.accountName, c.container⟩
      container := c.container
      space := Namespace.ofText c.root
      allowsRange := c.allowsRange
      signer? := some (.account service c.container) }
  | none, _ => .error (.backend (.client "malformed endpoint"))
  | _, none => .error (.backend (.client "malformed account key"))

end BlobVault
