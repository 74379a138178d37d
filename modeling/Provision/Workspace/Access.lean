import Provision.Resolution.Traversal
import Provision.Url.Reference
import Provision.Workspace.Loading

namespace Provision.Operation

open Provision.Resolution

def locateInFolder (files : FileTree) (root : String) (u : Installable) (a : Artifact) :
    Except Failure String :=
  let location := String.ofList (Path.normalize (Path.join root.toList a.path.toList))
  if files.exists? location then return location
  else throw (.noArtifact (a.id ++ ":" ++ a.version.text) u.text location)

def locateRemote (url : String) (a : Artifact) : Except Failure String :=
  match Url.resolve? url a.path with
  | some location => return location
  | none => throw .numeral

def locate (w : Workspace) (u : Installable) : Artifact → Except Failure String :=
  match u.owner.map Source.identity with
  | some (.folder path) => locateInFolder w.files (Repository.rootFolder w.files path) u
  | some (.remote url) => locateRemote url
  | _ => fun a => return a.path

def lacksContent (w : Workspace) (u : Installable) : Bool :=
  (u.owner.bind w.repository?).any Repository.lacksContent

def materialize (u : Installable) : Operation Contents := do
  let w ← get
  if lacksContent w u then throw (.noContent u.text)
  ofExcept (Contents.ofArtifacts (locate w u) u.artifacts)

def access : Access Workspace where
  list := list
  materialize := materialize
  describe := describe
  note := Workspace.note

end Provision.Operation
