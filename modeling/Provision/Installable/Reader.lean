import Provision.Installable
import Provision.Version.Reader
import Provision.Text.Case
import Provision.Value.Key

namespace Provision

open Provision.Text

def requireText (what : String) (v : Value) : Except Failure String :=
  match v with
  | .text s => if isBlankText s then throw (.blank what v) else return trimText s
  | _ => throw (.blank what v)

structure Capability.Fields where
  namespaceName : Value := .text unitNamespace
  name : Value
  version : Value := .null

def Capability.ofFields (f : Capability.Fields) : Except Failure Capability := do
  let namespaceName ← requireText "capability namespace" f.namespaceName
  let name ← requireText "capability name" f.name
  let version ← Version.ofValue f.version
  return ⟨namespaceName, name, version⟩

structure Requirement.Fields where
  namespaceName : Value := .text unitNamespace
  name : Value
  range : Value ⊕ VersionRange := .inl .null
  optional : Value := .bool false
  greedy : Value := .bool true

def Requirement.requireFlag (name what : String) : Value → Except Failure Bool
  | .bool b => return b
  | _ => throw (.flag name what)

def Requirement.ofFields (f : Requirement.Fields) : Except Failure Requirement := do
  let namespaceName ← requireText "requirement namespace" f.namespaceName
  let name ← requireText "requirement name" f.name
  let range ← match f.range with
    | .inl v => VersionRange.ofValue v
    | .inr r => pure r
  let optional ← requireFlag name "optional" f.optional
  let greedy ← requireFlag name "greedy" f.greedy
  return ⟨namespaceName, name, range, optional, greedy⟩

structure Artifact.Fields where
  classifier : Value := .text (Classifier.text .bundle)
  id : Value
  version : Value
  path : Value
  isFragment : Value := .bool false
  isSingleton : Value := .bool false

def Artifact.requireClassifier (id : Value) (v : Value) : Except Failure Classifier :=
  match v with
  | .text s =>
    match Classifier.ofText? s with
    | some c => return c
    | none => throw (.classifier id v)
  | _ => throw (.classifier id v)

def Artifact.ofFields (f : Artifact.Fields) : Except Failure Artifact := do
  let classifier ← requireClassifier f.id f.classifier
  let id ← requireText "artifact id" f.id
  let version ← Version.ofValue f.version
  let path ← requireText ("artifact " ++ id ++ " path") f.path
  return ⟨classifier, id, version, path, f.isFragment, f.isSingleton⟩

structure Conventions where
  /-- The namespace in which every unit provides its own identity. -/
  unitNamespace : Value := .text Provision.unitNamespace
  /-- The names that a folder's manifest may have, in the order in which they are looked for. -/
  manifestNames : Value := .list [.text "units.yaml", .text "units.yml", .text "units.json"]

def Installable.ofFields (c : Conventions) (id version : Value) (requires : List Requirement)
    (provides : List Capability) (artifacts : List Artifact) (owner : Option Source) :
    Except Failure Installable := do
  let id ← requireText "unit id" id
  let version ← Version.ofValue version
  let namespaceName ← requireText "capability namespace" c.unitNamespace
  return build namespaceName id version requires provides artifacts owner

/-- How strictly requirements are followed: in full, or within what the owners offer. -/
inductive IncludeMode where
  | full
  | slice
  deriving DecidableEq, Repr

def IncludeMode.text : IncludeMode → String
  | .full => "full"
  | .slice => "slice"

def IncludeMode.ofName? (name : String) : Option IncludeMode :=
  if name = "full" then some .full
  else if name = "slice" then some .slice
  else none

def IncludeMode.ofValue (v : Value) : Except Failure IncludeMode :=
  match ofName? (String.ofList (lower (trim v.display.toList))) with
  | some mode => return mode
  | none => throw (.mode v)

end Provision
