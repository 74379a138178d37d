import Provision.Installable
import Provision.Log

namespace Provision.Resolution

/-- Repositories in a world of type `σ`. -/
structure Access (σ : Type) where
  /-- The units of a repository, in order. -/
  list : Source → EStateM Failure σ (List Installable)
  /-- The located artifacts of a unit. -/
  materialize : Installable → EStateM Failure σ Contents
  /-- What a repository is called in messages. -/
  describe : Source → EStateM Failure σ String
  note : Log.Record → σ → σ

inductive Probe where
  | found (u : Installable)
  | absent
  /-- The repository could not be read. -/
  | failed (cause : Failure)

namespace Access

variable {σ : Type}

def log (A : Access σ) (level : Log.Level) (message : String) : EStateM Failure σ Unit :=
  fun w => .ok () (A.note ⟨level, message, []⟩ w)

def debug (A : Access σ) (message : String) : EStateM Failure σ Unit :=
  A.log .debug message

def probe (A : Access σ) (s : Source) (r : Requirement) : EStateM Failure σ Probe := fun w =>
  match A.list s w with
  | .ok units w =>
    match units.find? (·.satisfies r) with
    | some u => .ok (.found u) w
    | none => .ok .absent w
  | .error f w => if f.isMissing then .ok (.failed f) w else .error f w

def reason (A : Access σ) (s : Source) : Probe → EStateM Failure σ String
  | .found u => return "provided by " ++ u.text
  | .absent => return "nothing in " ++ (← A.describe s) ++ " provides it"
  | .failed f => return f.message

def label (A : Access σ) (u : Installable) : EStateM Failure σ String :=
  match u.owner with
  | none => return u.id
  | some s => return u.id ++ "[" ++ (← A.describe s) ++ "]"

end Access

end Provision.Resolution
