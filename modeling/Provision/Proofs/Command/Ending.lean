import Provision.Command.Run
import Provision.Proofs.Command.Settings
import Provision.Proofs.Resolution.Reporting
import Provision.Proofs.Workspace.Interruption

namespace Provision.Command

open Provision.Resolution Provision.Operation Provision.Operation.Sample

def Opens (a : Arguments) (surrounding : Option String) (w : Workspace) (c : Configuration)
    (sources : List Source) (v : Workspace) : Prop :=
  ∃ w₁ w₂, Configuration.ofArguments a w = .ok c w₁ ∧
    startLog a surrounding c.logLevel w₁ = .ok () w₂ ∧ c.repositories ≠ [] ∧
    (announce c >>= fun _ => openAll c.repositories) w₂ = .ok sources v

variable {a : Arguments} {surrounding level : Option String} {w w' v : Workspace} {f : Failure}
  {c : Configuration} {sources : List Source} {code : ExitCode}

section Attempt

variable {α : Type} {handle : Failure → Option (ExitCode × String)} {x : Operation α}

end Attempt

namespace Sample

def request : Arguments where
  repositories := ["/units.json"]
  units := ["a"]

def settings : Configuration := ⟨["/units.json"], .full, ["a"], none⟩

def closed : Workspace := { files := (shelf keylessBytes).files }

def garbled : Workspace := { files := { entries := [(["c"], .file ⟨#[0xff]⟩)] } }

end Sample

open Sample

end Provision.Command
