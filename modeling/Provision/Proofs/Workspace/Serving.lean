import Provision.Proofs.Workspace.Steady

namespace Provision

open Provision.Resolution Provision.Operation

def Repository.isShut (r : Repository) : Bool :=
  r.memo.isNone && r.isOffline

namespace Workspace

/-- A workspace has the repositories of another one, all of them in memory, and the same ones of them
cannot be read. -/
structure Serves (w₀ w : Workspace) : Prop extends w₀.Resembles w where
  shut : ∀ s, (w.repository? s).map Repository.isShut = (w₀.repository? s).map Repository.isShut

def units? (w : Workspace) (s : Source) : Option (List Installable) :=
  if (w.repository? s).any Repository.isShut then none else some (w.listing s)

variable {w₀ w : Workspace}

theorem serves_of_inMemory (h : ∀ r ∈ w.repositories, r.InMemory) : w.Serves w :=
  ⟨.refl_of_inMemory h, fun _ => rfl⟩

theorem units?_of_repository {s : Source} {r : Repository} (hr : w.repository? s = some r) :
    w.units? s = if r.isShut then none else some r.declared := by
  rw [units?, listing, hr]
  rfl

theorem Serves.modify (h : w₀.Serves w) {t : Source} {f : Repository → Repository}
    (hresembles : w₀.Resembles (w.modifyRepository t f))
    (hf : ∀ r, w.repository? t = some r → (f r).isShut = r.isShut) :
    w₀.Serves (w.modifyRepository t f) := by
  exact ⟨hresembles, fun s => (map_repository?_modify hf s).trans (h.shut s)⟩

theorem lasting_serves (w₀ : Workspace) : Lasting w₀.Serves where
  note m w h := by
    refine ⟨(lasting_resembles w₀).note m w h.toResembles, fun s => ?_⟩
    rw [repository?_note]
    exact h.shut s
  http client w h := ⟨(lasting_resembles w₀).http client w h.toResembles, h.shut⟩
  rename t name w h :=
    h.modify ((lasting_resembles w₀).rename t name w h.toResembles) fun _ _ => rfl

/-- Remembering the units of a repository that can be read changes nothing that is asked for. -/
theorem Serves.remember (h : w₀.Serves w) {t : Source} {r : Repository}
    (hr : w.repository? t = some r) (ho : r.isOffline = false) :
    ∃ v, w₀.Serves v ∧ Operation.remember t r.declared w = .ok () v := by
  have hmodified : w₀.Serves (w.modifyRepository t fun q => { q with memo := some r.declared }) := by
    refine h.modify (h.memorize hr) fun q hq => ?_
    obtain rfl : r = q := Option.some.inj (hr.symm.trans hq)
    simp [Repository.isShut, ho]
  have hend := of_remember (lasting_serves w₀) hmodified
  obtain ⟨v, -, hv⟩ := h.toResembles.remember hr
  rw [hv] at hend
  exact ⟨v, hend, hv⟩

/-- A repository in memory lists the units that it has at the start, if it can be read at the start. -/
theorem Serves.list (h : w₀.Serves w) (s : Source) : ∃ v, w₀.Serves v ∧
    match w₀.units? s with
    | some units => Operation.list s w = .ok units v
    | none => Operation.list s w = .error (.offline (w₀.naming s)) v := by
  have hunits : w₀.units? s = w.units? s := by
    have hany (o : Option Repository) :
        o.any Repository.isShut = (o.map Repository.isShut).any id := by cases o <;> rfl
    rw [units?, units?, hany, hany, h.shut s, listing, listing, h.core s]
  rw [hunits]
  cases hr : w.repository? s with
  | none =>
    have hnone : w.units? s = some [] := by
      rw [units?, listing, hr]
      rfl
    rw [hnone]
    exact ⟨w, h, list_of_none hr⟩
  | some r =>
    rw [units?_of_repository hr]
    have hmem := h.inMemory s r hr
    cases hm : r.memo with
    | some us =>
      have hopen : r.isShut = false := by rw [Repository.isShut, hm]; rfl
      rw [hopen]
      exact ⟨w, h, hmem.memo us hm ▸ list_of_memo hr hm⟩
    | none =>
      have hshut : r.isShut = r.isOffline := by rw [Repository.isShut, hm]; rfl
      obtain ⟨name, hname, hload⟩ := load_of_inMemory hmem s
      have hnaming : w₀.naming s = name := by
        rw [naming, ← h.core s, hr, Option.map_some, Repository.core, hname]
      rw [list_of_unread hr hm, fetch, hload, hshut, hnaming]
      cases ho : r.isOffline with
      | true => exact ⟨w, h, rfl⟩
      | false =>
        obtain ⟨v, hv, hremember⟩ := h.remember hr ho
        refine ⟨v, hv, ?_⟩
        simp only [Bool.false_eq_true, ↓reduceIte, pure_bind]
        rw [bind_of_ok hremember]
        rfl

end Workspace

end Provision
