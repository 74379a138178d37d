import Provision.Text.Blank

namespace Provision.Path

open Provision.Text

def isAbsolute (path : List Char) : Bool :=
  path.head? = some '/'

def join (folder path : List Char) : List Char :=
  if isAbsolute path || folder.isEmpty then path
  else if folder.getLast? = some '/' then folder ++ path
  else folder ++ '/' :: path

/-- How many slashes a path keeps at its front: two where there are exactly two. -/
def rootSlashes (path : List Char) : Nat :=
  match path.takeWhile (· = '/') with
  | [] => 0
  | [_, _] => 2
  | _ => 1

/-- Adds a name to the names above it; two dots take the last one back, if there is one to take. -/
def pushName (absolute : Bool) (names : List (List Char)) (name : List Char) : List (List Char) :=
  if name.isEmpty ∨ name = ['.'] then names
  else if name = ['.', '.'] then
    if names.isEmpty then (if absolute then [] else [name])
    else if names.getLast? = some ['.', '.'] then names ++ [name]
    else names.dropLast
  else names ++ [name]

def normalize (path : List Char) : List Char :=
  let names := (splitOnChar '/' path).foldl (pushName (isAbsolute path)) []
  let text := List.replicate (rootSlashes path) '/' ++ List.intercalate ['/'] names
  if text.isEmpty then ['.'] else text

def folder (path : List Char) : List Char :=
  let head := dropEndWhile (· != '/') path
  if head.all (· = '/') then head else dropEndWhile (· = '/') head

def absolute (workingFolder path : List Char) : List Char :=
  normalize (join workingFolder path)

end Provision.Path
