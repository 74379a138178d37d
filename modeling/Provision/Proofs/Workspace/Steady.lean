import Provision.Proofs.Resolution.Listing
import Provision.Proofs.Workspace.Memory

namespace Provision

open Provision.Resolution Provision.Operation

/-- A repository in memory remembers nothing but the declared units. -/
structure Repository.InMemory (r : Repository) : Prop where
  identity : ∃ name, r.identity = .memory name
  memo : ∀ us, r.memo = some us → us = r.declared

def Repository.core (r : Repository) : Identity × List Installable :=
  (r.identity, r.declared)

namespace Workspace

/-- A workspace has the repositories of another one, all of them in memory. -/
structure Resembles (w₀ w : Workspace) : Prop where
  core : ∀ s, (w.repository? s).map Repository.core = (w₀.repository? s).map Repository.core
  inMemory : ∀ s r, w.repository? s = some r → r.InMemory

def listing (w : Workspace) : Listing := fun s =>
  match (w.repository? s).map Repository.core with
  | none => []
  | some (_, declared) => declared

def naming (w : Workspace) : Naming := fun s =>
  match (w.repository? s).map Repository.core with
  | some (.memory name, _) => name
  | _ => ""

variable {w₀ w : Workspace}

theorem Resembles.modify (h : w₀.Resembles w) {t : Source} {f : Repository → Repository}
    (hf : ∀ r, w.repository? t = some r → (f r).core = r.core ∧ (f r).InMemory) :
    w₀.Resembles (w.modifyRepository t f) := by
  refine ⟨fun s => ?_, fun s r hr => ?_⟩
  · exact (map_repository?_modify (fun r hr => (hf r hr).1) s).trans (h.core s)
  · rw [repository?_modify] at hr
    split at hr
    case isTrue ht =>
      obtain ⟨q, hq, rfl⟩ := Option.map_eq_some_iff.mp hr
      exact (hf q ((repository?_congr ht w).trans hq)).2
    case isFalse => exact h.inMemory s r hr

theorem lasting_resembles (w₀ : Workspace) : Lasting w₀.Resembles where
  note m w h := by
    refine ⟨fun s => ?_, fun s r hr => h.inMemory s r ?_⟩
    · rw [repository?_note]
      exact h.core s
    · rwa [repository?_note] at hr
  http _ _ h := ⟨h.core, h.inMemory⟩
  rename t _ _ h := h.modify fun r hr => ⟨rfl, (h.inMemory t r hr).identity, (h.inMemory t r hr).memo⟩

theorem Resembles.describe (h : w₀.Resembles w) (s : Source) :
    Operation.describe s w = .ok (w₀.naming s) w := by
  rw [Operation.describe, get_bind, naming, ← h.core s]
  cases hr : w.repository? s with
  | none => rfl
  | some r =>
    obtain ⟨name, hname⟩ := (h.inMemory s r hr).identity
    simp only [Repository.describe, hname, Option.map_some, Repository.core]
    rfl

theorem Resembles.memorize (h : w₀.Resembles w) {t : Source} {r : Repository}
    (hr : w.repository? t = some r) :
    w₀.Resembles (w.modifyRepository t fun q => { q with memo := some r.declared }) := by
  refine h.modify fun q hq => ?_
  obtain rfl : r = q := Option.some.inj (hr.symm.trans hq)
  exact ⟨rfl, (h.inMemory t r hr).identity, fun us hus => (Option.some.inj hus).symm⟩

theorem Resembles.remember (h : w₀.Resembles w) {t : Source} {r : Repository}
    (hr : w.repository? t = some r) :
    ∃ v, w₀.Resembles v ∧ Operation.remember t r.declared w = .ok () v := by
  have hend := of_remember (lasting_resembles w₀) (h.memorize hr)
  obtain ⟨name, hname⟩ := (h.inMemory t r hr).identity
  obtain ⟨v, hv⟩ := remember_returns hr (fun url hi => by cases hname.symm.trans hi) r.declared
  rw [hv] at hend
  exact ⟨v, hend, hv⟩

theorem load_of_inMemory {r : Repository} (h : r.InMemory) (t : Source) :
    ∃ name, r.identity = .memory name ∧
      load t r = if r.isOffline then throw (.offline name) else pure r.declared := by
  obtain ⟨name, hname⟩ := h.identity
  refine ⟨name, hname, ?_⟩
  unfold load
  rw [hname]
  rfl

/-- A repository in memory lists the units declared at the start, unless it cannot be read. -/
theorem Resembles.list (h : w₀.Resembles w) (s : Source) :
    ∃ v, w₀.Resembles v ∧ (Operation.list s w = .ok (w₀.listing s) v ∨
      ∃ name, Operation.list s w = .error (.offline name) v) := by
  rw [listing, ← h.core s]
  cases hr : w.repository? s with
  | none => exact ⟨w, h, Or.inl (list_of_none hr)⟩
  | some r =>
    have hmem := h.inMemory s r hr
    rw [Option.map_some, Repository.core]
    cases hm : r.memo with
    | some us =>
      obtain rfl := hmem.memo us hm
      exact ⟨w, h, Or.inl (list_of_memo hr hm)⟩
    | none =>
      obtain ⟨name, -, hload⟩ := load_of_inMemory hmem s
      rw [list_of_unread hr hm, fetch, hload]
      cases ho : r.isOffline with
      | true => exact ⟨w, h, Or.inr ⟨name, rfl⟩⟩
      | false =>
        obtain ⟨v, hv, hremember⟩ := h.remember hr
        refine ⟨v, hv, Or.inl ?_⟩
        simp only [Bool.false_eq_true, ↓reduceIte, pure_bind]
        simp only [bind, EStateM.bind, hremember]
        rfl

theorem Resembles.eq_listing (h : w₀.Resembles w) {s : Source} {units : List Installable}
    {w' : Workspace} (hl : Operation.list s w = .ok units w') : units = w₀.listing s := by
  obtain ⟨v, -, hok | ⟨name, herror⟩⟩ := h.list s
  · rw [hl] at hok
    cases hok
    rfl
  · rw [hl] at herror
    cases herror

theorem Resembles.isMissing_of_list (h : w₀.Resembles w) {s : Source} {f : Failure}
    {w' : Workspace} (hl : Operation.list s w = .error f w') : f.isMissing := by
  obtain ⟨v, -, hok | ⟨name, herror⟩⟩ := h.list s
  · rw [hl] at hok
    cases hok
  · rw [hl] at herror
    cases herror
    rfl

theorem keeps_list_of_resembles (w₀ : Workspace) (s : Source) :
    Keeps w₀.Resembles (Operation.list s) := by
  intro w hw
  obtain ⟨v, hv, h | ⟨name, h⟩⟩ := hw.list s <;> rwa [h]

theorem resembles_of_reaches {v : Workspace} (h : Reaches access w v) (hw : w₀.Resembles w) :
    w₀.Resembles v :=
  of_reaches (lasting_resembles w₀) (keeps_list_of_resembles w₀) h hw

theorem Resembles.refl_of_inMemory (h : ∀ r ∈ w.repositories, r.InMemory) : w.Resembles w :=
  ⟨fun _ => rfl, fun _ r hr => h r (Array.mem_of_getElem? hr)⟩

theorem exists_of_mem_listing {s : Source} {q : Installable} (hq : q ∈ w.listing s) :
    ∃ r ∈ w.repositories, q ∈ r.declared := by
  unfold listing at hq
  cases hr : w.repository? s with
  | none =>
    rw [hr] at hq
    cases hq
  | some r =>
    rw [hr] at hq
    exact ⟨r, Array.mem_of_getElem? hr, hq⟩

theorem listing_subset (w : Workspace) (s : Source) :
    w.listing s ⊆ w.repositories.toList.flatMap Repository.declared := by
  intro q hq
  obtain ⟨r, hr, hqr⟩ := exists_of_mem_listing hq
  exact List.mem_flatMap.mpr ⟨r, Array.mem_toList_iff.mpr hr, hqr⟩

theorem steady_of_resembles (hw : w.Resembles w) : Steady access w w.listing w.naming where
  list _ hv _ _ _ h := (resembles_of_reaches hv hw).eq_listing h
  describe _ hv s name w' h := by
    have hname := (resembles_of_reaches hv hw).describe s
    rw [show Operation.describe s _ = access.describe s _ from rfl, h] at hname
    cases hname
    rfl

end Workspace

end Provision
