import Provision.Proofs.Workspace.Reading

namespace Provision

namespace Operation

open Provision.Resolution

variable {α : Type}

def Keeps (P : Workspace → Prop) (x : Operation α) : Prop :=
  ∀ ⦃w⦄, P w → P (endWorld (x w))

/-- Neither the log nor the client nor the names of repositories matter to a property. -/
structure Lasting (P : Workspace → Prop) : Prop where
  note : ∀ r w, P w → P (w.note r)
  http : ∀ client w, P w → P { w with http := client }
  rename : ∀ s (name : Repository → Option String) w, P w →
    P (w.modifyRepository s fun r => { r with name := name r })

variable {P : Workspace → Prop}

theorem keeps_of_congruent {x : Operation α} (h : Congruent (fun w v => w = v ∧ P w) x) :
    Keeps P x :=
  fun _ hw => h.keeps hw

theorem congruent_of_keeps {x : Operation α} (h : Keeps P x) :
    Congruent (fun w v => w = v ∧ P w) x := by
  refine ⟨fun _ _ => trivial, ?_⟩
  rintro w _ - ⟨rfl, hw⟩
  have hend := h hw
  cases hx : x w with
  | ok a v | error f v =>
    rw [hx] at hend
    exact ⟨v, ⟨rfl, hend⟩, rfl⟩

theorem legible_self (P : Workspace → Prop) : Legible fun w v => w = v ∧ P w where
  files := by rintro w _ ⟨rfl, -⟩; rfl
  conventions := by rintro w _ ⟨rfl, -⟩; rfl
  threshold := by rintro w _ ⟨rfl, -⟩; rfl
  repository := by rintro s w _ ⟨rfl, -⟩; rfl

theorem Lasting.corresponding (hP : Lasting P) : Corresponding fun w v => w = v ∧ P w where
  toLegible := legible_self P
  note := by
    rintro m w _ ⟨rfl, hw⟩
    exact ⟨rfl, hP.note m w hw⟩

theorem Lasting.renamable (hP : Lasting P) (s : Source) :
    Renamable (fun w v => w = v ∧ P w) s := by
  rintro name w _ ⟨rfl, hw⟩
  exact ⟨rfl, hP.rename s name w hw⟩

theorem Lasting.served (hP : Lasting P) (url : String) : Served (fun w v => w = v ∧ P w) url where
  reply := by rintro b w _ ⟨rfl, -⟩; rfl
  events := by rintro b w _ ⟨rfl, -⟩; rfl
  client := by
    rintro b w _ ⟨rfl, hw⟩
    exact ⟨rfl, hP.http _ w hw⟩

theorem keeps_describe (s : Source) : Keeps P (describe s) :=
  keeps_of_congruent (congruent_describe (legible_self P) s)

theorem keeps_materialize (u : Installable) : Keeps P (materialize u) :=
  keeps_of_congruent (congruent_materialize (legible_self P) u)

theorem list_of_none {t : Source} {w : Workspace} (h : w.repository? t = none) :
    list t w = .ok [] w := by
  rw [list, get_bind, h]
  rfl

theorem list_of_memo {t : Source} {w : Workspace} {r : Repository} {us : List Installable}
    (h : w.repository? t = some r) (hm : r.memo = some us) : list t w = .ok us w := by
  rw [list, get_bind, h]
  dsimp only
  rw [hm]
  rfl

theorem list_of_unread {t : Source} {w : Workspace} {r : Repository}
    (h : w.repository? t = some r) (hm : r.memo = none) : list t w = fetch t r w := by
  rw [list, get_bind, h]
  dsimp only
  rw [hm]

section Lasting

variable (hP : Lasting P)

include hP

theorem keeps_load (s : Source) (r : Repository) : Keeps P (load s r) :=
  keeps_of_congruent (congruent_load hP.corresponding (hP.renamable s) fun url _ => hP.served url)

theorem of_remember {t : Source} {us : List Installable} {w : Workspace}
    (h : P (w.modifyRepository t fun r => { r with memo := some us })) :
    P (endWorld (remember t us w)) := by
  have hfields : Congruent (fun w v => w = v ∧ P w) (remember.fields t us.length) :=
    mirrors_bind (congruent_describe (legible_self P) t) fun _ => mirrors_pure _
  exact keeps_of_congruent (congruent_trace hP.corresponding "Repository loaded" hfields) h

/-- Reading a repository keeps a property if remembering the units does, where none were. -/
theorem keeps_list_of {t : Source} (hfetch : ∀ w r us v, P w → w.repository? t = some r →
      r.memo = none → load t r w = .ok us v → P v →
      P (v.modifyRepository t fun q => { q with memo := some us })) : Keeps P (list t) := by
  intro w hw
  cases hr : w.repository? t with
  | none => rwa [list_of_none hr]
  | some r =>
    cases hm : r.memo with
    | some us => rwa [list_of_memo hr hm]
    | none =>
      have hload := keeps_load hP t r hw
      rw [list_of_unread hr hm]
      unfold fetch
      simp only [bind, EStateM.bind]
      cases hl : load t r w with
      | error f v =>
        rw [hl] at hload
        exact hload
      | ok us v =>
        rw [hl] at hload
        have hremember := of_remember hP (hfetch w r us v hw hr hm hl hload)
        dsimp only
        cases hv : remember t us v with
        | ok _ v' | error f v' =>
          rw [hv] at hremember
          exact hremember

theorem of_reaches (hlist : ∀ t, Keeps P (list t)) {w v : Workspace} (h : Reaches access w v)
    (hw : P w) : P v := by
  induction h with
  | start => exact hw
  | list s _ ih => exact hlist s ih
  | materialize u _ ih => exact keeps_materialize u ih
  | describe s _ ih => exact keeps_describe s ih
  | note m _ ih => exact hP.note m _ ih

end Lasting

end Operation

end Provision
