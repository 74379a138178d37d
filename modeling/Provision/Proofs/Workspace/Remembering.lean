import Provision.Proofs.Resolution.Termination

namespace Provision

open Provision.Resolution Provision.Operation

def Workspace.remembered? (w : Workspace) (handle : Nat) : Option (List Installable) :=
  w.repositories[handle]?.bind Repository.memo

/-- The repositories remember what they listed. -/
def Recalled (v : Workspace × List Call) : Prop :=
  ∀ s units, (⟨.list s, .ok units⟩ : Call) ∈ v.2 → units = [] ∨ v.1.remembered? s.handle = some units

variable {w w' v : Workspace} {s : Source} {handle : Nat} {units : List Installable}

namespace Workspace

theorem remembered?_eq (w : Workspace) (s : Source) :
    w.remembered? s.handle = (w.repository? s).bind Repository.memo := rfl

theorem remembered?_modify (t : Source) (f : Repository → Repository) (w : Workspace)
    (handle : Nat) : (w.modifyRepository t f).remembered? handle =
      if t.handle = handle then (w.repositories[handle]?.map f).bind Repository.memo
      else w.remembered? handle := by
  unfold remembered? modifyRepository
  simp only [Array.getElem?_modify]
  split <;> rfl

end Workspace

theorem lasting_remembered (handle : Nat) (units : List Installable) :
    Lasting fun w => w.remembered? handle = some units where
  note m w h := by
    rw [← h]
    unfold Workspace.note
    split <;> rfl
  http _ _ h := h
  rename t name w h := by
    rw [Workspace.remembered?_modify, ← h]
    split
    · unfold Workspace.remembered?
      cases w.repositories[handle]? <;> rfl
    · rfl

theorem keeps_list_of_remembered (handle : Nat) (units : List Installable) (t : Source) :
    Keeps (fun w => w.remembered? handle = some units) (list t) := by
  refine keeps_list_of (lasting_remembered handle units) fun w r us v hw hr hm _ hv => ?_
  have hne : t.handle ≠ handle := by
    rintro rfl
    rw [Workspace.remembered?_eq, hr, Option.bind_some, hm] at hw
    cases hw
  rw [Workspace.remembered?_modify, if_neg hne]
  exact hv

theorem keeps_ask_of_remembered (handle : Nat) (units : List Installable) (q : Question) :
    Keeps (fun w => w.remembered? handle = some units) (access.ask q) := by
  cases q with
  | list s => exact keeps_list_of_remembered handle units s
  | materialize u => exact keeps_materialize u
  | describe s => exact keeps_describe s

theorem lasting_size (n : Nat) : Lasting fun w => w.repositories.size = n where
  note m w h := by
    rw [← h]
    unfold Workspace.note
    split <;> rfl
  http _ _ h := h
  rename _ _ _ h := by rwa [Workspace.modifyRepository, Array.size_modify]

theorem remembered_of_fetch {r : Repository} (hr : w.repository? s = some r)
    (h : fetch s r w = .ok units v) : v.remembered? s.handle = some units := by
  have hsize := keeps_load (lasting_size w.repositories.size) s r rfl
  have hlt : s.handle < w.repositories.size := (Array.getElem?_eq_some_iff.mp hr).1
  obtain ⟨us, v₁, hl, h⟩ := exists_of_bind_ok h
  obtain ⟨_, v₂, hv, h⟩ := exists_of_bind_ok h
  cases h
  rw [hl] at hsize
  have hmodified : (v₁.modifyRepository s fun q => { q with memo := some units }).remembered?
      s.handle = some units := by
    have hlt₁ : s.handle < v₁.repositories.size := hsize ▸ hlt
    rw [Workspace.remembered?_modify, if_pos rfl, Array.getElem?_eq_getElem hlt₁]
    rfl
  have hend := of_remember (lasting_remembered s.handle units) hmodified
  rwa [hv] at hend

theorem remembered_of_list_of_some {r : Repository} (hr : w.repository? s = some r)
    (h : list s w = .ok units v) : v.remembered? s.handle = some units := by
  cases hm : r.memo with
  | some us =>
    rw [list_of_memo hr hm] at h
    cases h
    rw [Workspace.remembered?_eq, hr, Option.bind_some, hm]
  | none =>
    rw [list_of_unread hr hm] at h
    exact remembered_of_fetch hr h

theorem remembered_of_list (h : list s w = .ok units v) :
    units = [] ∨ v.remembered? s.handle = some units := by
  cases hr : w.repository? s with
  | none =>
    rw [list_of_none hr] at h
    cases h
    exact Or.inl rfl
  | some r => exact Or.inr (remembered_of_list_of_some hr h)

theorem Recalled.ask {x : Workspace × List Call} (hx : Recalled x) (q : Question) :
    Recalled (endWorld (access.recorded.ask q x)) := by
  obtain ⟨w, cs⟩ := x
  -- The earlier calls are still remembered, so only the one that is made now is looked at.
  have hold {v : Workspace} (hv : v = endWorld (access.ask q w)) {s : Source}
      {units : List Installable} (hc : (⟨.list s, .ok units⟩ : Call) ∈ cs) :
      units = [] ∨ v.remembered? s.handle = some units :=
    (hx s units hc).imp_right fun h => hv ▸ keeps_ask_of_remembered s.handle units q h
  rw [ask_recorded, record]
  cases ha : access.ask q w with
  | ok a v =>
    intro s units hc
    obtain hc | hc := List.mem_append.mp hc
    · exact hold (by rw [ha]; rfl) hc
    · cases List.mem_singleton.mp hc
      exact remembered_of_list ha
  | error f v =>
    intro s units hc
    obtain hc | hc := List.mem_append.mp hc
    · exact hold (by rw [ha]; rfl) hc
    · cases List.mem_singleton.mp hc

variable {S : Setting} {requested : List Installable} {m n : Moment (Workspace × List Call)}

theorem Recalled.note {x : Workspace × List Call} (hx : Recalled x) (r : Log.Record) :
    Recalled (access.recorded.note r x) := by
  intro s units hc
  exact (hx s units hc).imp_right fun h => (lasting_remembered s.handle units).note r x.1 h

end Provision
