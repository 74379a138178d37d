import Provision.Installable.Reader
import Provision.Resolution.Access

namespace Provision.Resolution

structure Setting where
  repositories : List Source
  mode : IncludeMode

inductive Outcome where
  | provider (u : Installable)
  /-- Nothing was found, and nothing is recorded. -/
  | dropped
  | failed

variable {σ : Type}

def searchAll (A : Access σ) (owner : Option Source) (r : Requirement) :
    List Source → EStateM Failure σ (Option Installable)
  | [] => return none
  | s :: rest =>
    if owner.any s.same then searchAll A owner r rest
    else do
      match ← A.probe s r with
      | .found u =>
        A.debug ("Resolved " ++ r.text ++ " from fallback repository " ++ (← A.describe s))
        return some u
      | .absent => searchAll A owner r rest
      | .failed f =>
        A.debug ("Skip repository " ++ (← A.describe s) ++ ": " ++ f.message)
        searchAll A owner r rest

/-- The search in the configured repositories. -/
def searchConfigured (A : Access σ) (S : Setting) (r : Requirement) (owner : Option Source)
    (path : String) : EStateM Failure σ Outcome := do
  match ← searchAll A owner r S.repositories with
  | some u => return .provider u
  | none =>
    if r.optional then
      A.debug ("Ignore " ++ r.text ++ " because it is optional and can't be resolved...")
      return .dropped
    else if S.mode = .slice then
      A.debug ("Failed to resolve " ++ r.text ++ ", ignore because of slice mode...")
      return .failed
    else throw (.unresolved path r)

def search (A : Access σ) (S : Setting) (r : Requirement) (u : Installable) (path : String) :
    EStateM Failure σ Outcome := do
  match u.owner with
  | none => searchConfigured A S r none path
  | some s =>
    match ← A.probe s r with
    | .found p => return .provider p
    | other =>
      if S.mode = .slice then
        A.debug ("Failed to resolve " ++ r.text ++ " (" ++ (← A.reason s other) ++
          "), ignore because of slice mode...")
        return .failed
      else if r.optional && !r.greedy then
        A.debug ("Failed to resolve optional " ++ r.text ++ " (" ++ (← A.reason s other) ++
          "), ignore because of non greedy...")
        return .dropped
      else searchConfigured A S r (some s) path

end Provision.Resolution
