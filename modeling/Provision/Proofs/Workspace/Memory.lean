import Provision.Proofs.Workspace.Failures

namespace Provision

open Provision.Resolution Provision.Operation

/-- A repository in memory can be read and lists the declared units. -/
structure Repository.Holds (units : List Installable) (r : Repository) : Prop where
  inMemory : ∃ name, r.identity = .memory name
  online : r.isOffline = false
  declared : r.declared = units
  memo : ∀ us, r.memo = some us → us = units

/-- A reference is to a repository in memory that lists certain units. -/
def Workspace.Holds (s : Source) (units : List Installable) (w : Workspace) : Prop :=
  ∃ r, w.repository? s = some r ∧ r.Holds units

variable {s : Source} {units : List Installable}

theorem Repository.Holds.rename {r : Repository} (h : r.Holds units) (name : Option String) :
    Repository.Holds units { r with name := name } :=
  ⟨h.inMemory, h.online, h.declared, h.memo⟩

theorem Repository.Holds.remember {r : Repository} (h : r.Holds units) :
    Repository.Holds units { r with memo := some units } :=
  ⟨h.inMemory, h.online, h.declared, fun _ he => (Option.some.inj he).symm⟩

theorem Workspace.Holds.modify {w : Workspace} (h : w.Holds s units) {t : Source}
    {f : Repository → Repository}
    (hf : ∀ r, t.handle = s.handle → w.repository? t = some r → r.Holds units → (f r).Holds units) :
    (w.modifyRepository t f).Holds s units :=
  Workspace.exists_repository_modify h fun r ht hr =>
    hf r ht ((Workspace.repository?_congr ht w).trans hr)

theorem lasting_holds (s : Source) (units : List Installable) :
    Lasting (Workspace.Holds s units) where
  note m w h := by rwa [Workspace.Holds, Workspace.repository?_note]
  http _ _ h := h
  rename _ _ _ h := h.modify fun _ _ _ hr => hr.rename _

theorem load_of_holds {r : Repository} (h : r.Holds units) (t : Source) :
    load t r = pure units := by
  obtain ⟨name, hname⟩ := h.inMemory
  unfold load
  rw [hname]
  simp [loadMemory, h.online, h.declared]

theorem keeps_list (t : Source) : Keeps (Workspace.Holds s units) (list t) := by
  refine keeps_list_of (lasting_holds s units) fun w r us v hw hr _ hl hv => ?_
  refine hv.modify fun q ht _ hq => ?_
  -- The repository that is read is the one in memory, which lists the declared units.
  obtain ⟨p, hp, hh⟩ := hw
  obtain rfl : p = r :=
    Option.some.inj (hp.symm.trans ((Workspace.repository?_congr ht w).symm.trans hr))
  rw [load_of_holds hh] at hl
  cases hl
  exact hq.remember

theorem holds_of_reaches {w v : Workspace} (h : Reaches access w v) (hw : w.Holds s units) :
    v.Holds s units :=
  of_reaches (lasting_holds s units) keeps_list h hw

theorem list_of_holds {w : Workspace} (hw : w.Holds s units) : ∃ v, list s w = .ok units v := by
  obtain ⟨r, hr, hh⟩ := id hw
  cases hm : r.memo with
  | some us => exact ⟨w, by rw [list_of_memo hr hm, hh.memo us hm]⟩
  | none =>
    obtain ⟨name, hname⟩ := hh.inMemory
    obtain ⟨v, hv⟩ := remember_returns hr (fun url hi => by cases hname.symm.trans hi) units
    refine ⟨v, ?_⟩
    rw [list_of_unread hr hm, fetch, load_of_holds hh, pure_bind]
    simp only [bind, EStateM.bind, hv]
    rfl

end Provision
