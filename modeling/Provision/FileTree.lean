import Provision.Failure

namespace Provision

open Provision.Text

inductive Entry where
  | file (content : ByteArray)
  | folder

structure FileTree where
  /-- The entries below the root, by the names that lead to them. -/
  entries : List (List String × Entry) := []
  workingFolder : List String := []

namespace FileTree

def entry? (t : FileTree) (names : List String) : Option Entry :=
  if names.isEmpty then some .folder else t.entries.lookup names

def longestName : Nat := 255

def pathBound : Nat := 4096

def walk (t : FileTree) (place : List String) : List String → Except FileError (List String)
  | [] => return place
  | name :: rest =>
    match t.entry? place with
    | none => throw .absent
    | some (.file _) => throw .notFolder
    | some .folder =>
      if name = "" ∨ name = "." then walk t place rest
      else if name = ".." then walk t place.dropLast rest
      else if longestName < nameSize name then throw .nameTooLong
      else if (t.entry? (place ++ [name])).isNone then throw .absent
      else walk t (place ++ [name]) rest

def names (path : String) : List String :=
  (splitOnChar '/' path.toList).map String.ofList

def start (t : FileTree) (path : String) : List String :=
  if path.startsWith "/" then [] else t.workingFolder

def checkPath (path : String) : Except FileError String :=
  if path.toList.contains '\x00' then throw .zeroByte
  else
    match spelling? path with
    | none => throw .absent
    | some spelled =>
      if path.isEmpty then throw .absent
      else if pathBound ≤ nameSize spelled then throw .nameTooLong
      else return spelled

def locate (t : FileTree) (path : String) : Except FileError (List String) := do
  let path ← checkPath path
  t.walk (t.start path) (names path)

def lookup? (t : FileTree) (path : String) : Option Entry :=
  match t.locate path with
  | .ok place => t.entry? place
  | .error _ => none

def exists? (t : FileTree) (path : String) : Bool :=
  (t.lookup? path).isSome

def isFile (t : FileTree) (path : String) : Bool :=
  match t.lookup? path with
  | some (.file _) => true
  | _ => false

def isFolder (t : FileTree) (path : String) : Bool :=
  match t.lookup? path with
  | some .folder => true
  | _ => false

def read (t : FileTree) (path : String) : Except FileError ByteArray := do
  match t.entry? (← t.locate path) with
  | some (.file content) => return content
  | some .folder => throw .isFolder
  | none => throw .absent

def set (t : FileTree) (place : List String) (e : Entry) : FileTree :=
  { t with entries := (place, e) :: t.entries.filter fun (names, _) => names != place }

def remove (t : FileTree) (place : List String) : FileTree :=
  { t with entries := t.entries.filter fun (names, _) => !place.isPrefixOf names }

/-- The name that a path ends in, whether a slash stands behind it, and the names in front. -/
def lastName (path : String) : List String × String × Bool :=
  let reversed := (names path).reverse
  match reversed.dropWhile (·.isEmpty) with
  | [] => ([], "", true)
  | last :: folder => (folder.reverse, last, reversed.head?.any (·.isEmpty))

/-- The place of a file to be written: a new name in an existing folder, or a file that exists. A
path with a slash at its end names a folder. -/
def target (t : FileTree) (path : String) : Except FileError (List String) := do
  let path ← checkPath path
  let (above, last, endsInSlash) := lastName path
  let folder ← t.walk (t.start path) above
  match t.entry? folder with
  | none => throw .absent
  | some (.file _) => throw .notFolder
  | some .folder =>
    if last = "" ∨ last = "." ∨ last = ".." ∨ endsInSlash then throw .isFolder
    else if longestName < nameSize last then throw .nameTooLong
    else
      match t.entry? (folder ++ [last]) with
      | some .folder => throw .isFolder
      | _ => return folder ++ [last]

def write (t : FileTree) (path : String) (content : ByteArray) : Except FileError FileTree := do
  return t.set (← t.target path) (.file content)

end FileTree

end Provision
