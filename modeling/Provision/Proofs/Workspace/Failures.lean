import Provision.Proofs.Failure
import Provision.Proofs.Url.Public
import Provision.Proofs.Workspace.Keeping

namespace Provision

open Provision.Resolution

theorem Url.eq_numeral_of_publicPort {port : List Char} {f : Failure}
    (h : publicPort port = .error f) : f = .numeral := by
  by_cases hport : IsPort port
  · obtain ⟨shown, hshown⟩ := publicPort_of_isPort hport
    cases hshown.symm.trans h
  · cases (publicPort_of_not_isPort hport).symm.trans h
    rfl

theorem Url.eq_numeral_of_publicText {url : String} {f : Failure}
    (h : publicText url = .error f) : f = .numeral := by
  unfold publicText at h
  split at h
  · cases h
  · split at h
    · obtain h | ⟨text, -, h⟩ := of_bind_eq_error h
      · obtain h | ⟨port, -, h⟩ := of_bind_eq_error h
        · exact eq_numeral_of_publicPort h
        · cases h
      · cases h
    · cases h

theorem Repository.eq_numeral_of_describe {r : Repository} {f : Failure}
    (h : r.describe = .error f) : f = .numeral := by
  unfold describe at h
  split at h
  · cases h
  · cases h
  · obtain h | ⟨text, -, h⟩ := of_bind_eq_error h
    · exact Url.eq_numeral_of_publicText h
    · cases h

theorem Repository.exists_name {r : Repository}
    (h : ∀ url, r.identity = .remote url → ∃ target, Url.publicText url = .ok target) :
    ∃ name, r.describe = .ok name := by
  unfold describe
  cases hi : r.identity with
  | memory name => exact ⟨_, rfl⟩
  | folder path => exact ⟨_, rfl⟩
  | remote url =>
    obtain ⟨target, htarget⟩ := h url hi
    dsimp only
    rw [htarget]
    exact ⟨_, rfl⟩

theorem Contents.exists_of_ofArtifacts {locate : Artifact → Except ε String} {e : ε}
    {as : List Artifact} (h : ofArtifacts locate as = .error e) : ∃ a ∈ as, locate a = .error e := by
  induction as with
  | nil => cases h
  | cons a as ih =>
    obtain h | ⟨location, -, h⟩ := of_bind_eq_error h
    · exact ⟨a, List.mem_cons_self, h⟩
    · obtain h | ⟨contents, -, h⟩ := of_bind_eq_error h
      · obtain ⟨b, hb, hf⟩ := ih h
        exact ⟨b, List.mem_cons_of_mem _ hb, hf⟩
      · cases h

namespace Operation

theorem eq_numeral_of_describe {s : Source} {w w' : Workspace} {f : Failure}
    (h : describe s w = .error f w') : f = .numeral := by
  rw [describe, get_bind] at h
  cases hr : w.repository? s with
  | none =>
    rw [hr] at h
    cases h
  | some r =>
    rw [hr] at h
    dsimp only at h
    cases hd : r.describe with
    | ok name =>
      rw [hd] at h
      cases h
    | error g =>
      rw [hd] at h
      cases h
      exact Repository.eq_numeral_of_describe hd

theorem describe_returns {s : Source} {w : Workspace} {r : Repository}
    (hs : w.repository? s = some r)
    (hr : ∀ url, r.identity = .remote url → ∃ target, Url.publicText url = .ok target) :
    ∃ name, describe s w = .ok name w := by
  obtain ⟨name, hname⟩ := Repository.exists_name hr
  refine ⟨name, ?_⟩
  rw [describe, get_bind, hs]
  dsimp only
  rw [hname]
  rfl

theorem trace_returns (message : String) {context : Operation (List (String × Value))}
    {w : Workspace} (h : ∃ fields v, context w = .ok fields v) :
    ∃ v, trace message context w = .ok () v := by
  obtain ⟨fields, v, h⟩ := h
  rw [trace, get_bind]
  split
  · simp only [bind, EStateM.bind, h]
    exact ⟨_, rfl⟩
  · exact ⟨_, rfl⟩

theorem remember_returns {s : Source} {w : Workspace} {r : Repository}
    (hs : w.repository? s = some r)
    (hr : ∀ url, r.identity = .remote url → ∃ target, Url.publicText url = .ok target)
    (units : List Installable) : ∃ v, remember s units w = .ok () v := by
  let remembered := w.modifyRepository s fun q => { q with memo := some units }
  have hq : remembered.repository? s = some { r with memo := some units } := by
    rw [Workspace.repository?_modify, if_pos rfl, hs]
    rfl
  obtain ⟨name, hname⟩ := describe_returns hq hr
  refine trace_returns (w := remembered) _ ?_
  simp only [remember.fields, bind, EStateM.bind, hname]
  exact ⟨_, _, rfl⟩

/-- An artifact cannot be located when it is not there, or when the address that it is relative to is
ill-formed. -/
theorem of_locate {w : Workspace} {u : Installable} {a : Artifact} {f : Failure}
    (h : locate w u a = .error f) :
    f = .numeral ∨ ∃ artifact location, f = .noArtifact artifact u.text location := by
  unfold locate at h
  cases hu : u.owner.map Source.identity with
  | none =>
    rw [hu] at h
    cases h
  | some identity =>
    rw [hu] at h
    cases identity with
    | memory name => cases h
    | folder path =>
      dsimp only [locateInFolder] at h
      split at h
      · cases h
      · cases h
        exact Or.inr ⟨_, _, rfl⟩
    | remote url =>
      dsimp only [locateRemote] at h
      split at h
      · cases h
      · cases h
        exact Or.inl rfl

/-- The contents of a unit cannot be had when its repository has none, or when one of its artifacts
cannot be located. -/
theorem of_materialize {u : Installable} {w w' : Workspace} {f : Failure}
    (h : materialize u w = .error f w') :
    f = .noContent u.text ∨ f = .numeral ∨
      ∃ artifact location, f = .noArtifact artifact u.text location := by
  rw [materialize, get_bind] at h
  dsimp only at h
  split at h
  · cases h
    exact Or.inl rfl
  · cases hc : Contents.ofArtifacts (locate w u) u.artifacts with
    | ok c =>
      rw [hc] at h
      cases h
    | error g =>
      rw [hc] at h
      cases h
      obtain ⟨a, -, ha⟩ := Contents.exists_of_ofArtifacts hc
      exact Or.inr (of_locate ha)

end Operation

end Provision
