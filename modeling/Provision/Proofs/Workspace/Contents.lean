import Provision.Proofs.Resolution.Calls
import Provision.Proofs.Workspace.Failures

namespace Provision

open Provision.Resolution

def Artifact.bundle? (a : Artifact) (location : String) : Option Bundle :=
  match a.classifier with
  | .bundle => some ⟨a.id, a.version, location, a.isFragment, a.isSingleton⟩
  | .feature => none

def Artifact.feature? (a : Artifact) (location : String) : Option Feature :=
  match a.classifier with
  | .bundle => none
  | .feature => some ⟨a.id, a.version, location⟩

/-- Artifacts at their locations, bundles and features apart. -/
def Contents.located (location : Artifact → String) (as : List Artifact) : Contents where
  bundles := as.filterMap fun a => a.bundle? (location a)
  features := as.filterMap fun a => a.feature? (location a)

theorem Contents.located_cons (location : Artifact → String) (a : Artifact) (as : List Artifact) :
    located location (a :: as) = (located location as).add a (location a) := by
  unfold located add Artifact.bundle? Artifact.feature?
  cases h : a.classifier <;> simp [h, addBundle, addFeature]

theorem Contents.exists_location {ε : Type} {locate : Artifact → Except ε String}
    {as : List Artifact} {c : Contents} (h : ofArtifacts locate as = .ok c) :
    ∃ location, (∀ a ∈ as, locate a = .ok (location a)) ∧ c = located location as := by
  let location (a : Artifact) : String :=
    match locate a with
    | .ok place => place
    | .error _ => ""
  refine ⟨location, ?_⟩
  induction as generalizing c with
  | nil =>
    cases h
    exact ⟨List.forall_mem_nil _, rfl⟩
  | cons a as ih =>
    cases ha : locate a with
    | error e =>
      simp only [ofArtifacts, ha] at h
      cases h
    | ok place =>
      have hplace : location a = place := by simp only [location, ha]
      cases hrest : ofArtifacts locate as with
      | error e =>
        simp only [ofArtifacts, ha, hrest] at h
        cases h
      | ok rest =>
        simp only [ofArtifacts, ha, hrest] at h
        cases h
        obtain ⟨hall, rfl⟩ := ih hrest
        refine ⟨List.forall_mem_cons.mpr ⟨by rw [ha, hplace], hall⟩, ?_⟩
        rw [located_cons, hplace]

namespace Operation

structure SameContents (w v : Workspace) : Prop where
  files : v.files = w.files
  lacking : ∀ s, (v.repository? s).map Repository.lacksContent =
    (w.repository? s).map Repository.lacksContent

theorem SameContents.modify {w v : Workspace} (h : SameContents w v) (t : Source)
    {f : Repository → Repository} (hf : ∀ r, (f r).lacksContent = r.lacksContent) :
    SameContents w (v.modifyRepository t f) := by
  refine ⟨h.files, fun s => ?_⟩
  exact (Workspace.map_repository?_modify (fun r _ => hf r) s).trans (h.lacking s)

theorem lasting_sameContents (w : Workspace) : Lasting (SameContents w) where
  note m v h := by
    refine ⟨?_, fun s => ?_⟩
    · rw [← h.files]
      unfold Workspace.note
      split <;> rfl
    · rw [Workspace.repository?_note, h.lacking s]
  http _ _ h := ⟨h.files, h.lacking⟩
  rename t _ _ h := h.modify t fun _ => rfl

theorem sameContents_of_reaches {w v : Workspace} (h : Reaches access w v) : SameContents w v := by
  refine of_reaches (lasting_sameContents w) (fun t => ?_) h ⟨rfl, fun _ => rfl⟩
  exact keeps_list_of (lasting_sameContents w) fun _ _ _ _ _ _ _ _ hv => hv.modify t fun _ => rfl

theorem materialize_apply (u : Installable) (w : Workspace) :
    answerOf (materialize u w) =
      if lacksContent w u then .error (.noContent u.text)
      else Contents.ofArtifacts (locate w u) u.artifacts := by
  rw [materialize, get_bind]
  dsimp only
  split
  · rfl
  · cases Contents.ofArtifacts (locate w u) u.artifacts <;> rfl

theorem SameContents.lacksContent {w v : Workspace} (h : SameContents w v) (u : Installable) :
    lacksContent v u = lacksContent w u := by
  unfold Operation.lacksContent
  cases u.owner with
  | none => rfl
  | some s =>
    have hany (r? : Option Repository) :
        r?.any Repository.lacksContent = (r?.map Repository.lacksContent).any id := by
      cases r? <;> rfl
    rw [Option.bind_some, Option.bind_some, hany, hany, h.lacking s]

theorem SameContents.locate {w v : Workspace} (h : SameContents w v) (u : Installable) :
    locate v u = locate w u := by
  unfold Operation.locate
  rw [h.files]

/-- Reading repositories makes no difference to the contents of a unit. -/
theorem materialize_of_reaches {w v : Workspace} (h : Reaches access w v) (u : Installable) :
    answerOf (materialize u v) = answerOf (materialize u w) := by
  have hsame := sameContents_of_reaches h
  rw [materialize_apply, materialize_apply, hsame.lacksContent, hsame.locate]

theorem located_of_materialize {u : Installable} {w : Workspace} {c : Contents}
    (h : answerOf (materialize u w) = .ok c) :
    lacksContent w u = false ∧ ∃ location, (∀ a ∈ u.artifacts, locate w u a = .ok (location a)) ∧
      c = .located location u.artifacts := by
  rw [materialize_apply] at h
  split at h
  case isTrue => cases h
  case isFalse hlack => exact ⟨Bool.eq_false_iff.mpr hlack, Contents.exists_location h⟩

/-- What keeps a unit from being materialised is that its repository has no contents, or one of its
artifacts. -/
theorem unlocated_of_materialize {u : Installable} {w : Workspace} {f : Failure}
    (h : answerOf (materialize u w) = .error f) :
    lacksContent w u ∨ ∃ a ∈ u.artifacts, locate w u a = .error f := by
  rw [materialize_apply] at h
  split at h
  case isTrue hlack => exact Or.inl hlack
  case isFalse => exact Or.inr (Contents.exists_of_ofArtifacts h)

end Operation

end Provision
