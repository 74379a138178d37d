import Provision.Http.Client
import Provision.Log
import Provision.Repository

namespace Provision

structure Workspace where
  files : FileTree := {}
  http : Http.Client Float := { clock := 1000.0 }
  conventions : Conventions := {}
  repositories : Array Repository := #[]
  /-- The rank from which on messages are noted. -/
  threshold : Nat := Log.Level.info.rank
  /-- The noted messages, the latest first. -/
  log : List Log.Record := []

abbrev Operation := EStateM Failure Workspace

namespace Workspace

def note (r : Log.Record) (w : Workspace) : Workspace :=
  if w.threshold ≤ r.level.rank then { w with log := r :: w.log } else w

def isTracing (w : Workspace) : Bool :=
  w.threshold ≤ Log.Level.debug.rank

def workingFolder (w : Workspace) : String :=
  "/" ++ Text.join "/" w.files.workingFolder

def openRepository (r : Repository) (w : Workspace) : Source × Workspace :=
  (⟨r.identity, w.repositories.size⟩, { w with repositories := w.repositories.push r })

def repository? (w : Workspace) (s : Source) : Option Repository :=
  w.repositories[s.handle]?

def modifyRepository (s : Source) (f : Repository → Repository) (w : Workspace) : Workspace :=
  { w with repositories := w.repositories.modify s.handle f }

end Workspace

namespace Operation

def ofExcept {α : Type} : Except Failure α → Operation α
  | .ok a => return a
  | .error f => throw f

def log (level : Log.Level) (message : String) (context : List (String × Value) := []) :
    Operation Unit :=
  modify (Workspace.note ⟨level, message, context⟩)

def trace (message : String) (context : Operation (List (String × Value))) : Operation Unit := do
  if (← get).isTracing then
    log .debug message (Log.context (← context))

def describe (s : Source) : Operation String := do
  match (← get).repository? s with
  | some r => ofExcept r.describe
  | none => return ""

end Operation

end Provision
