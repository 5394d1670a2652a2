import BlobVault.ObjectPath

/-!
# Namespaces inside a container

Several stores share one container by giving their keys different beginnings. `normalize` closes a
nonempty beginning with the path delimiter; `pathFor` is the path of a key in a namespace, and
`localKey?` finds the key that a listed path stands for, if it lies directly in the namespace.
-/

namespace BlobVault

/-- The beginning of all paths of a store, in the form in which it was given. -/
structure Namespace where
  root : String
  deriving DecidableEq, Repr

namespace Namespace

/-- The text, closed with the path delimiter unless it is empty or closed already. -/
def normalize (text : String) : String :=
  match text.toList.getLast? with
  | none => text
  | some c => if c = pathDelimiter then text else text ++ "/"

/-- The namespace of a text. -/
def ofText (text : String) : Namespace := ⟨normalize text⟩

/-- The whole container. -/
def whole : Namespace := ⟨""⟩

/-- The path of a key. -/
def pathFor (n : Namespace) (key : String) : ObjectPath :=
  ObjectPath.ofChars (n.root.toList ++ key.toList)

/-- The characters of the root without the delimiters at their end. -/
def trimmedRoot (n : Namespace) : List Char :=
  (n.root.toList.reverse.dropWhile (· = pathDelimiter)).reverse

/-- The path below which the objects of the namespace lie; none for the whole container. -/
def top? (n : Namespace) : Option ObjectPath :=
  if n.trimmedRoot = [] then none else some (ObjectPath.ofChars n.trimmedRoot)

/-- The key that a path stands for: what follows the root, when that is not empty and names no
deeper level. -/
def localKey? (n : Namespace) (p : ObjectPath) : Option String :=
  match Text.dropFront? n.root.toList p.text.toList with
  | some key => if key = [] ∨ pathDelimiter ∈ key then none else some (String.ofList key)
  | none => none

end Namespace

end BlobVault
