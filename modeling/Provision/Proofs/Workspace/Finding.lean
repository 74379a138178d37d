import Provision.Proofs.Resolution.Extension
import Provision.Workspace.Lookup

namespace Provision

open Provision.Resolution Provision.Operation

/-- Repositories are indistinguishable in two workspaces: by what they list, by probes and searches,
and by runs. -/
structure Workspace.AnswersAs (x z : Workspace) : Prop where
  list : ∀ s, answerOf (Operation.list s z) = answerOf (Operation.list s x)
  probe : ∀ s r, answerOf (access.probe s r z) = answerOf (access.probe s r x)
  find : ∀ s id version, answerOf (findUnit s id version z) = answerOf (findUnit s id version x)
  request : ∀ ss token, answerOf (findRequested ss token z) = answerOf (findRequested ss token x)
  resolve : ∀ S requested, answerOf (resolve access S requested z) =
    answerOf (resolve access S requested x)

theorem answerOf_of_sameEnd {σ τ α : Type} {rel : σ → τ → Prop} {e : EStateM.Result Failure σ α}
    {e' : EStateM.Result Failure τ α} (h : SameEnd rel e' e) : answerOf e' = answerOf e := by
  cases e with
  | ok a w | error f w =>
    obtain ⟨v, -, rfl⟩ := h
    rfl

namespace Operation

variable {rel : Workspace → Workspace → Prop}

theorem sameEnd_resolve {σ : Type} {A : Access σ} {rel : σ → σ → Prop}
    (h : A.Mirrored (fun _ => True) rel A) (S : Setting) (requested : List Installable) {w v : σ}
    (hwv : rel w v) : SameEnd rel (resolve A S requested v) (resolve A S requested w) :=
  (alike_of_mirrored h S).resolve rfl (fun _ _ _ _ _ _ => mirrors_search h S _ _ _) hwv

theorem congruent_select {s : Source} (hlist : Congruent rel (list s))
    (hdescribe : Congruent rel (describe s)) (id : String) (wanted : Option Version) :
    Congruent rel (do
      match Installable.select (← list s) id wanted with
      | some u => return u
      | none => throw (.noUnit (unitLabel id wanted) (← describe s))) := by
  refine mirrors_bind hlist fun units => ?_
  split
  · exact mirrors_pure _
  · exact mirrors_bind hdescribe fun _ => mirrors_throw _

theorem congruent_findUnit {s : Source} (hlist : Congruent rel (list s))
    (hdescribe : Congruent rel (describe s)) (id : String) (version : Value) :
    Congruent rel (findUnit s id version) := by
  have hselect := congruent_select hlist hdescribe id
  unfold findUnit
  dsimp only
  split
  · exact mirrors_bind (mirrors_pure none) hselect
  · refine mirrors_bind ?_ hselect
    cases Version.ofValue version with
    | ok v => exact mirrors_pure _
    | error f => exact mirrors_throw f

theorem congruent_attempt {s : Source} {id : String} {version : Value}
    (hfind : Congruent rel (findUnit s id version)) :
    Congruent rel (findFirst.attempt id version s) := by
  refine ⟨fun _ _ => trivial, fun w v _ hwv => ?_⟩
  have hsame := hfind.same w v trivial hwv
  unfold findFirst.attempt
  cases hw : findUnit s id version w with
  | ok u w' =>
    rw [hw] at hsame
    obtain ⟨v', hv', hv⟩ := hsame
    rw [hv]
    exact ⟨v', hv', rfl⟩
  | error f w' =>
    rw [hw] at hsame
    obtain ⟨v', hv', hv⟩ := hsame
    rw [hv]
    dsimp only
    split <;> exact ⟨v', hv', rfl⟩

theorem congruent_findFirst {id : String} {version : Value} {ss : List Source}
    (hfind : ∀ s ∈ ss, Congruent rel (findUnit s id version)) :
    Congruent rel (findFirst id version ss) := by
  induction ss with
  | nil => exact mirrors_pure _
  | cons s ss ih =>
    refine mirrors_bind (congruent_attempt (hfind s List.mem_cons_self)) fun found => ?_
    cases found with
    | inl u => exact mirrors_pure _
    | inr f =>
      refine mirrors_bind (ih fun t ht => hfind t (List.mem_cons_of_mem s ht)) fun later => ?_
      cases later <;> exact mirrors_pure _

theorem congruent_findRequested {ss : List Source}
    (hfind : ∀ s ∈ ss, ∀ id version, Congruent rel (findUnit s id version)) (token : String) :
    Congruent rel (findRequested ss token) := by
  refine mirrors_bind (congruent_findFirst fun s hs => hfind s hs _ _) fun found => ?_
  cases found with
  | inl u => exact mirrors_pure u
  | inr causes => exact mirrors_throw _

end Operation

/-- Where reading goes on alike for ever, everything that is asked is answered alike. -/
theorem Workspace.answersAs_of_indistinct {x z : Workspace} (h : Indistinct access x z) :
    x.AnswersAs z := by
  obtain ⟨rel, hrel, hxz⟩ := h
  have hsame {α : Type} {op : Operation α} (hop : Congruent rel op) :
      answerOf (op z) = answerOf (op x) :=
    answerOf_of_sameEnd (hop.same x z trivial hxz)
  have hfind (s : Source) (id : String) (version : Value) : Congruent rel (findUnit s id version) :=
    congruent_findUnit (hrel.ask (.list s)) (hrel.ask (.describe s)) id version
  exact ⟨fun s => hsame (hrel.ask (.list s)), fun s r => hsame (mirrors_probe hrel s r),
    fun s id version => hsame (hfind s id version),
    fun ss token => hsame (congruent_findRequested (fun s _ => hfind s) token),
    fun S requested => answerOf_of_sameEnd (sameEnd_resolve hrel S requested hxz)⟩

end Provision
