import BlobVault.Cache
import BlobVault.Upload
import BlobVault.Url.Basic

/-!
# Stores

A store keeps blobs under keys. A memory store keeps them in the world's memory, a remote store in a
namespace of a container, and a caching store keeps local copies in front of another store.

This module has the records of the three kinds and the requests that a remote store makes.
-/

namespace BlobVault

/-- The answer to a look-up that some stores cannot give. `unknown` says nothing about presence. -/
inductive Lookup (α : Type)
  | found (value : α)
  | missing
  | unknown
  deriving DecidableEq, Repr

/-- A store in memory. -/
structure MemoryStore where
  name : String
  /-- Under which name the world keeps the contents. -/
  memory : String
  allowsRange : Bool := false
  tempDir : TempDir

/-- The account and the container that a remote store says it uses. -/
structure Location where
  account : String
  container : String
  deriving DecidableEq, Repr

/-- The text of a location. -/
def Location.text (l : Location) : String := l.account ++ "/" ++ l.container

/-- What signs URLs: a fixed base, the service of an account, or nothing but failures. -/
inductive Signer
  | static (base : String)
  | account (service : Url) (container : String)
  | failing

/-- A store in a namespace of a container. -/
structure RemoteStore where
  name : String
  location : Location
  /-- Under which name the world keeps the container. -/
  container : String
  space : Namespace := Namespace.whole
  allowsRange : Bool := false
  /-- Longer files are uploaded in parts. -/
  threshold : Nat := 8388608
  tempDir : TempDir
  signer? : Option Signer := none

/-- A store of any kind. -/
inductive Store
  | memory (store : MemoryStore)
  | remote (store : RemoteStore)
  | caching (name : String) (cache : FileCache) (inner : Store)

namespace MemoryStore

/-- What the store holds. -/
def blobs (m : MemoryStore) (w : World) : Blobs := w.memory m.memory

/-- The content under a key. -/
def find? (m : MemoryStore) (key : String) : Action (Option Bytes) := do
  return (m.blobs (← get))[key]?

/-- Puts content under a key, in place of what is there. -/
def insert (m : MemoryStore) (key : String) (content : Bytes) : Action Unit :=
  modify fun w => w.setMemory m.memory ((m.blobs w).insert key content)

/-- The world without a key of the store. -/
def erase (m : MemoryStore) (key : String) (w : World) : World :=
  w.setMemory m.memory ((m.blobs w).erase key)

end MemoryStore

namespace RemoteStore

/-- The path of a key. -/
def pathFor (r : RemoteStore) (key : String) : ObjectPath := r.space.pathFor key

/-- Talks to the container; what the container answers is the result. -/
def call {α : Type} (r : RemoteStore) (x : Call α) : Action (Except ContainerError α) := fun w =>
  match x (w.container r.container) with
  | .ok a c => .ok (.ok a) (w.setContainer r.container c)
  | .error e c => .ok (.error e) (w.setContainer r.container c)

/-- Fails with a container error. -/
def fail {α : Type} (e : ContainerError) : Action α := throw (.backend (.container e))

/-- Talks to the container; a failure is one of the store. -/
def require {α : Type} (r : RemoteStore) (x : Call α) : Action α := do
  match ← r.call x with
  | .ok a => return a
  | .error e => fail e

/-- Talks to the container; an absent object gives no result, another failure is one of the
store. -/
def find? {α : Type} (r : RemoteStore) (x : Call α) : Action (Option α) := do
  match ← r.call x with
  | .ok a => return some a
  | .error (.notFound _) => return none
  | .error e => fail e

/-- Talks to the container; an object that is there already is no failure. -/
def ensure (r : RemoteStore) (x : Call Unit) : Action Unit := do
  match ← r.call x with
  | .ok _ => return ()
  | .error (.alreadyExists _) => return ()
  | .error e => fail e

/-- The size of a blob. -/
def size? (r : RemoteStore) (key : String) : Action (Option Nat) :=
  r.find? (Container.head (r.pathFor key))

/-- The world after a request to remove a blob; failures are not reported. -/
def erase (r : RemoteStore) (key : String) (w : World) : World :=
  match Container.delete (r.pathFor key) (w.container r.container) with
  | .ok _ c => w.setContainer r.container c
  | .error _ c => w.setContainer r.container c

/-- Uploads a local file in parts. Reading that fails gives the upload up. -/
def uploadParts (r : RemoteStore) (p : ObjectPath) (file : LocalPath) : Action Unit := do
  r.require (Container.beginUpload p)
  match ← outcome (fileContent file) with
  | .ok content => r.require (Container.finishUpload p content)
  | .error e =>
    if e ≠ .io .notFound then
      let _ ← r.call (Container.abortUpload p)
    throw e

/-- Uploads a local file unless the key exists. -/
def storeFile (r : RemoteStore) (key : String) (file : LocalPath) (length : Nat) : Action Unit := do
  if (← r.size? key).isSome then return ()
  let p := r.pathFor key
  if length ≤ r.threshold then
    let content ← fileContent file
    r.ensure (Container.create p content)
  else
    r.uploadParts p file

end RemoteStore

end BlobVault
