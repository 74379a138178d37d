import Provision.Installable.Reader
import Provision.Json.Reader
import Provision.Yaml.Document

namespace Provision.Manifest

open Provision.Text

abbrev Document := List (Value × Value)

/-- The result of reading a text, and whether it was read as JSON because it is no YAML. -/
structure Loading where
  fellBack : Bool
  result : Except Failure Document

def isJsonName (origin : String) : Bool :=
  endsWith ".json".toList (lower origin.toList)

/-- A value that is a mapping whose units, if any, are a list. -/
def documentOf (origin : String) (v : Value) : Except Failure Document :=
  match v.opened with
  | .map entries =>
    match (Value.get? "units" entries).map Value.opened with
    | none | some (.list _) => return entries
    | some _ => throw (.noUnitList origin)
  | _ => throw (.noUnitList origin)

def readJson (origin language : String) (cs : List Char) : Except Failure Value :=
  match Json.read .asText cs with
  | .ok v => return v
  | .error .illFormed => throw (.unparsable origin language)
  | .error .numeral => throw .numeral
  | .error .tooDeep => throw .exhausted

/-- Reads characters whose origin ends in `.json` as JSON, all others as YAML or else as JSON. -/
def load (cs : List Char) (origin : String) : Loading :=
  if isJsonName origin then
    ⟨false, do documentOf origin (← readJson origin "json" cs)⟩
  else
    match Yaml.read false (.ofCharacters cs) with
    | .ok v => ⟨false, documentOf origin v⟩
    | .error (.failure cause) => ⟨false, throw cause⟩
    | .error _ => ⟨true, do documentOf origin (← readJson origin "yaml" cs)⟩

def name? (d : Document) : Option String :=
  match Value.get? "name" d with
  | some (.text s) => some s
  | _ => none

/-! ### Entries -/

def get (key : String) (entry : List (Value × Value)) : Value :=
  (Value.get? key entry).getD .null

def flag (place key : String) (usual : Bool) (entry : List (Value × Value)) :
    Except Failure Bool :=
  match Value.get? key entry with
  | none => return usual
  | some (.bool b) => return b
  | some v => throw (.entryFlag place key v)

/-- An integer as the text of a version; everything else as it is. -/
def versionText (v : Value) : Except Failure Value :=
  match v with
  | .int i =>
    match intText? i with
    | some s => return .text s
    | none => throw .numeral
  | v => return v

def namespaceOf (c : Conventions) (entry : List (Value × Value)) : Value :=
  (Value.get? "namespace" entry).getD c.unitNamespace

def requirement (c : Conventions) (place : String) (v : Value) : Except Failure Requirement := do
  let entry ← match v.opened with
    | .text _ => pure [(Value.text "name", v)]
    | .map entry => pure entry
    | _ => throw (.entry place "requirement" v)
  let range ← versionText (get "range" entry)
  let optional ← flag place "optional" false entry
  let greedy ← flag place "greedy" true entry
  Requirement.ofFields
    { namespaceName := namespaceOf c entry
      name := get "name" entry
      range := .inl range
      optional := .bool optional
      greedy := .bool greedy }

def capability (c : Conventions) (place : String) (v : Value) :
    Except Failure Capability := do
  match v.opened with
  | .map entry =>
    let version ← versionText (get "version" entry)
    Capability.ofFields
      { namespaceName := namespaceOf c entry, name := get "name" entry, version := version }
  | _ => throw (.entry place "capability" v)

def artifact (place : String) (v : Value) : Except Failure Artifact := do
  match v.opened with
  | .map entry =>
    let version ← versionText (get "version" entry)
    let isFragment ← flag place "fragment" false entry
    let isSingleton ← flag place "singleton" false entry
    Artifact.ofFields
      { classifier := (Value.get? "classifier" entry).getD (.text (Classifier.text .bundle))
        id := get "id" entry
        version := version
        path := get "path" entry
        isFragment := .bool isFragment
        isSingleton := .bool isSingleton }
  | _ => throw (.entry place "artifact" v)

def parts (key : String) (entry : List (Value × Value)) : Except Failure (List Value) :=
  let v := get key entry
  if v.isEmpty then return []
  else
    match v.elements? with
    | some xs => return xs
    | none => throw .wrongType

def unitOfFields (c : Conventions) (label : String) (owner : Option Source) (id version : Value)
    (entry : List (Value × Value)) : Except Failure Installable := do
  if !id.isWritable then throw .numeral
  let place := label ++ " unit " ++ id.display
  let version ← versionText version
  let requires ← (← parts "requires" entry).mapM (requirement c place)
  let provides ← (← parts "provides" entry).mapM (capability c place)
  let artifacts ← (← parts "artifacts" entry).mapM (artifact place)
  Installable.ofFields c id version requires provides artifacts owner

def unit (c : Conventions) (label : String) (owner : Option Source) (position : Nat) (v : Value) :
    Except Failure Installable :=
  let place := label ++ " unit #" ++ toString position
  match v.opened with
  | .map entry =>
    match Value.get? "id" entry, Value.get? "version" entry with
    | some id, some version => unitOfFields c label owner id version entry
    | _, _ => throw (.unitKeys place)
  | _ => throw (.unitEntry place v)

def unitsFrom (c : Conventions) (label : String) (owner : Option Source) (position : Nat) :
    List Value → Except Failure (List Installable)
  | [] => return []
  | v :: rest => do
    let u ← unit c label owner position v
    return u :: (← unitsFrom c label owner (position + 1) rest)

def units (c : Conventions) (label : String) (owner : Option Source) (d : Document) :
    Except Failure (List Installable) := do
  unitsFrom c label owner 0 (← parts "units" d)

end Provision.Manifest
