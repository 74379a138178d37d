import Provision.Collection
import Provision.Request
import Provision.Version.Reader
import Provision.Workspace.Loading

namespace Provision

def Installable.select (units : List Installable) (id : String) (wanted : Option Version) :
    Option Installable :=
  match wanted with
  | some v => units.find? fun u => u.id = id && u.version = v
  | none => (units.filter fun u => u.id = id).foldl Collection.later none

namespace Operation

def unitLabel (id : String) (wanted : Option Version) : String :=
  match wanted with
  | none => id
  | some v => id ++ ":" ++ v.text

def findUnit (s : Source) (id : String) (version : Value) : Operation Installable := do
  let wanted ← match version with
    | .null => pure none
    | v => some <$> ofExcept (Version.ofValue v)
  match Installable.select (← list s) id wanted with
  | some u => return u
  | none => throw (.noUnit (unitLabel id wanted) (← describe s))

def findFirst (id : String) (version : Value) :
    List Source → Operation (Installable ⊕ List Failure)
  | [] => return .inr []
  | s :: rest => do
    match ← attempt s with
    | .inl u => return .inl u
    | .inr f =>
      match ← findFirst id version rest with
      | .inl u => return .inl u
      | .inr fs => return .inr (f :: fs)
where
  attempt (s : Source) : Operation (Installable ⊕ Failure) := fun w =>
    match findUnit s id version w with
    | .ok u w => .ok (.inl u) w
    | .error f w => if f.isMissing then .ok (.inr f) w else .error f w

def requestFailure (token : String) (causes : List Failure) : Failure :=
  let reasons := causes.map Failure.message
  if !causes.isEmpty && causes.all (·.kind = .unavailable) then .noneReachable token reasons
  else .noRequested token reasons

def findRequested (repositories : List Source) (token : String) : Operation Installable := do
  let r := Request.ofText token
  match ← findFirst r.id ((r.version.map Value.text).getD .null) repositories with
  | .inl u => return u
  | .inr causes => throw (requestFailure token causes)

end Operation

end Provision
