import Provision.Proofs.Resolution.Failing
import Provision.Proofs.Resolution.Provenance
import Provision.Proofs.Workspace.History
import Provision.Report

namespace Provision

open Provision.Resolution

namespace Operation

variable {w₀ w w' : Workspace} {s : Source} {r : Repository} {f : Failure}

def Unwritten (w₀ : Workspace) (f : Failure) : Prop :=
  ∃ s r url, w₀.repository? s = some r ∧ r.identity = .remote url ∧ Url.publicText url = .error f

theorem Unwritten.of_reaches (h : Unwritten w f) (hw : Reaches access w₀ w) : Unwritten w₀ f := by
  obtain ⟨s, r, url, hs, hi, htext⟩ := h
  have hidentity := Workspace.identity_of_reaches hw s
  rw [hs, Option.map_some, hi] at hidentity
  obtain ⟨r₀, hs₀, hi₀⟩ := Option.map_eq_some_iff.mp hidentity.symm
  exact ⟨s, r₀, url, hs₀, hi₀, htext⟩

variable {id token : String} {version : Value}

end Operation

end Provision
