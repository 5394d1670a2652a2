import Std.Data.ExtTreeMap
import BlobVault.Error
import BlobVault.Namespace
import BlobVault.Range

/-!
# Containers

A container maps paths to content and answers requests. In front of it stands a list of faults:
each names a kind of request, perhaps a path, how many matching requests it lets pass, how many it
strikes after that, and the error that they end with. A request that is struck is not carried out,
or it is, and only its answer is lost.
-/

namespace BlobVault

open Std (ExtTreeMap)

/-- The kinds of requests that a fault can strike. `body` is the content stream of a `get`. -/
inductive RequestKind
  | head | get | body | put | multipart | part | complete | abort | delete | list | copy
  deriving DecidableEq, Repr

/-- The kind of error that a fault causes. -/
inductive FaultError
  | generic | notFound | alreadyExists | denied
  deriving DecidableEq, Repr

/-- The error that a fault causes for a path. -/
def FaultError.at (e : FaultError) (path : String) : ContainerError :=
  match e with
  | generic => .generic
  | notFound => .notFound path
  | alreadyExists => .alreadyExists path
  | denied => .denied path

/-- A disturbance in front of a container. `after` counts the bytes or the objects that come through
before a broken stream or listing ends; `carriedOut` says that a request takes effect all the same,
though it is answered with the error. -/
structure Fault where
  kind : RequestKind
  path? : Option String := none
  error : FaultError := .generic
  skip : Nat := 0
  times? : Option Nat := none
  after : Nat := 0
  carriedOut : Bool := false
  deriving DecidableEq, Repr

namespace Fault

/-- Whether a fault is meant for a request. -/
def concerns (f : Fault) (kind : RequestKind) (path : String) : Bool :=
  f.kind == kind && (f.path?.isNone || f.path? == some path)

/-- The first of the faults that strikes a request, and the faults with their counts brought up to
date. -/
def strike (kind : RequestKind) (path : String) : List Fault → Option Fault × List Fault
  | [] => (none, [])
  | f :: fs =>
    let pass := fun g : Fault =>
      let (hit, rest) := strike kind path fs
      (hit, g :: rest)
    if !f.concerns kind path then pass f
    else
      match f.skip, f.times? with
      | skip + 1, _ => pass { f with skip }
      | 0, some 0 => pass f
      | 0, some (times + 1) => (some f, { f with times? := some times } :: fs)
      | 0, none => (some f, f :: fs)

end Fault

/-- Objects under their paths, and the faults in front of them. -/
structure Container where
  objects : ExtTreeMap String Bytes := ∅
  faults : List Fault := []

/-- A conversation with a container. -/
abbrev Call := EStateM ContainerError Container

/-- The content that a request opened: what will be delivered, and the error that breaks the
delivery off, if one does. -/
structure Delivery where
  bytes : Bytes
  failure? : Option ContainerError := none

namespace Container

/-- The content of an object. -/
def find? (c : Container) (p : ObjectPath) : Option Bytes := c.objects[p.text]?

/-- The container with content under a path. -/
def insert (c : Container) (p : ObjectPath) (content : Bytes) : Container :=
  { c with objects := c.objects.insert p.text content }

/-- The container without a path. -/
def erase (c : Container) (p : ObjectPath) : Container :=
  { c with objects := c.objects.erase p.text }

/-- The fault that strikes a request, if one does, and the container with its faults brought up to
date. -/
def strike (c : Container) (kind : RequestKind) (path : String) : Option Fault × Container :=
  let (hit, faults) := Fault.strike kind path c.faults
  (hit, { c with faults })

/-- The fault that strikes a request, if one does. -/
def strike? (kind : RequestKind) (path : String) : Call (Option Fault) := fun c =>
  let (hit, c) := c.strike kind path
  .ok hit c

/-- Fails if a fault strikes the request. -/
def reach (kind : RequestKind) (path : String) : Call Unit := fun c =>
  match c.strike kind path with
  | (some f, c) => .error (f.error.at path) c
  | (none, c) => .ok () c

/-- The container that a request leaves behind, whatever it answers. -/
def leave (x : Call Unit) (c : Container) : Container :=
  match x c with
  | .ok _ c => c
  | .error _ c => c

/-- Makes a request that changes the objects. One that a fault strikes is answered with the error of
the fault, and is carried out before that or not, as the fault has it. -/
def perform (kind : RequestKind) (path : String) (x : Call Unit) : Call Unit := fun c =>
  match c.strike kind path with
  | (some f, c) => .error (f.error.at path) (if f.carriedOut then leave x c else c)
  | (none, c) => x c

/-- The size of an object. -/
def head (p : ObjectPath) : Call Nat := do
  reach .head p.text
  match (← get).find? p with
  | some content => return content.length
  | none => throw (.notFound p.text)

/-- The content of an object, or a window of it. -/
def fetch (p : ObjectPath) (range? : Option ByteRange) : Call Delivery := do
  reach .get p.text
  match (← get).find? p with
  | none => throw (.notFound p.text)
  | some content =>
    let bytes := match range? with
      | some r => r.window content
      | none => content
    match ← strike? .body p.text with
    | some f => return ⟨bytes.take f.after, some (f.error.at p.text)⟩
    | none => return ⟨bytes, none⟩

/-- Stores content under a free path. -/
def create (p : ObjectPath) (content : Bytes) : Call Unit :=
  perform .put p.text do
    if ((← get).find? p).isSome then throw (.alreadyExists p.text)
    modify (·.insert p content)

/-- Starts an upload in parts. -/
def beginUpload (p : ObjectPath) : Call Unit := reach .multipart p.text

/-- Gives up an upload in parts. -/
def abortUpload (p : ObjectPath) : Call Unit := reach .abort p.text

/-- The largest number of bytes of one part of an upload. -/
def partSize : Nat := 8388608

/-- Sends some parts of an upload. -/
def sendParts (p : ObjectPath) : Nat → Call Unit
  | 0 => return ()
  | n + 1 => do
    reach .part p.text
    sendParts p n

/-- Sends the parts of an upload and completes it, whatever the path held before. An upload that
cannot be completed is given up, and an error of that counts first. -/
def finishUpload (p : ObjectPath) (content : Bytes) : Call Unit := do
  sendParts p ((content.length + (partSize - 1)) / partSize)
  match ← strike? .complete p.text with
  | some f =>
    if f.carriedOut then modify (·.insert p content)
    abortUpload p
    throw (f.error.at p.text)
  | none => modify (·.insert p content)

/-- Removes an object; an absent one is no error. -/
def delete (p : ObjectPath) : Call Unit := perform .delete p.text (modify (·.erase p))

/-- Copies an object to a free path. -/
def copyToFree (source target : ObjectPath) : Call Unit :=
  perform .copy target.text do
    let c ← get
    match c.find? source with
    | none => throw (.notFound source.text)
    | some content =>
      if (c.find? target).isSome then throw (.alreadyExists target.text)
      set (c.insert target content)

/-- The objects that a listing can show, in the order of their paths. The empty path is none of
them: it has no segment. -/
def visible (c : Container) : List (String × Bytes) :=
  c.objects.toList.filter fun (path, _) => path ≠ ""

/-- The visible objects below a path, or all of them, with their sizes. -/
def below (c : Container) (top? : Option ObjectPath) : List (ObjectPath × Nat) :=
  let sizes := c.visible.map fun (path, content) => (ObjectPath.mk path, content.length)
  match top? with
  | some top => sizes.filter fun (p, _) => p.isBelow top
  | none => sizes

/-- Lists objects: those that come through, and the error that breaks the listing off, if one
does. -/
def list (c : Container) (top? : Option ObjectPath) :
    (List (ObjectPath × Nat) × Option ContainerError) × Container :=
  let path := (top?.map ObjectPath.text).getD ""
  match c.strike .list path with
  | (some f, c) => (((c.below top?).take f.after, some (f.error.at path)), c)
  | (none, c) => ((c.below top?, none), c)

end Container

end BlobVault
