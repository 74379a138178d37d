import Provision.FileTree
import Provision.Installable.Reader
import Provision.Path
import Provision.Url.Public

namespace Provision

open Provision.Text

structure Repository where
  identity : Identity
  /-- The name given to the repository, or taken over from its manifest. -/
  name : Option String := none
  /-- The units, once the repository is read. -/
  memo : Option (List Installable) := none
  /-- The units added to a repository in memory. -/
  declared : List Installable := []
  /-- Whether a repository in memory cannot be read. -/
  isOffline : Bool := false
  /-- Whether a repository in memory has no contents for its units. -/
  lacksContent : Bool := false

namespace Repository

def named (r : Repository) (text : String) : String :=
  match r.name with
  | none => text
  | some name => if name.isEmpty then text else name ++ "@" ++ text

def describe (r : Repository) : Except Failure String :=
  match r.identity with
  | .memory name => return name
  | .folder path => return r.named path
  | .remote url => return r.named (← Url.publicText url)

def literal (kind : String) (r : Repository) : Except Failure String :=
  return kind ++ "(" ++ (← r.describe) ++ ")"

def ofFolder (workingFolder path : String) (name : Option String) : Repository :=
  let place := String.ofList (Path.absolute workingFolder.toList path.toList)
  { identity := .folder place, name := name }

def ofUrl (url : String) (name : Option String) : Repository :=
  { identity := .remote url, name := name }

def ofMemory (name : String) : Repository :=
  { identity := .memory name }

def add (r : Repository) (u : Installable) : Repository :=
  { r with declared := r.declared ++ [u], memo := none }

def isRemoteLocation (location : String) : Bool :=
  let cs := lower location.toList
  startsWith "http://".toList cs || startsWith "https://".toList cs

def ofLocation (workingFolder location : String) (name : Option String) : Repository :=
  if isRemoteLocation location then ofUrl location name
  else ofFolder workingFolder location name

def within (folder path : String) : String :=
  String.ofList (Path.join folder.toList path.toList)

def rootFolder (files : FileTree) (path : String) : String :=
  if files.isFile path then String.ofList (Path.folder path.toList) else path

def findManifest? (files : FileTree) (folder : String) : List Value → Except Failure (Option String)
  | [] => return none
  | .text name :: rest =>
    if files.isFile (within folder name) then return some (within folder name)
    else findManifest? files folder rest
  | _ => throw .wrongType

def manifestPath (files : FileTree) (c : Conventions) (path : String) : Except Failure String := do
  if files.isFile path then return path
  if !files.isFolder path then throw (.noFolder path)
  match c.manifestNames.elements? with
  | none => throw .wrongType
  | some names =>
    match ← findManifest? files path names with
    | some manifest => return manifest
    | none => throw (.noManifest (names.map Value.display) path)

end Repository

end Provision
