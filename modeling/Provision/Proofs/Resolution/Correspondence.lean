import Provision.Proofs.Resolution.Mirror

namespace Provision.Resolution

variable {σ τ α : Type} {rel : σ → τ → Prop}

theorem Mirrors.symm {x : EStateM Failure σ α} {y : EStateM Failure τ α}
    (h : Mirrors (fun _ => True) rel x y) :
    Mirrors (fun _ => True) (fun v w => rel w v) y x := by
  refine ⟨fun _ _ => trivial, fun v w _ hv => ?_⟩
  cases hx : x w with
  | ok a w' =>
    obtain ⟨v', hv', hy⟩ := (h.ok hx trivial).2 v hv
    rw [hy]
    exact ⟨w', hv', rfl⟩
  | error f w' =>
    obtain ⟨v', hv', hy⟩ := (h.error hx trivial).2 v hv
    rw [hy]
    exact ⟨w', hv', rfl⟩

theorem mirrors_refl (x : EStateM Failure σ α) : Mirrors (fun _ => True) Eq x x := by
  refine ⟨fun _ _ => trivial, ?_⟩
  rintro w _ - rfl
  cases x w with
  | ok a v | error f v => exact ⟨v, rfl, rfl⟩

theorem eq_of_sameEnd {e e' : EStateM.Result Failure σ α} (h : SameEnd Eq e' e) : e' = e := by
  cases e with
  | ok a w | error f w =>
    obtain ⟨_, rfl, h⟩ := h
    exact h

variable {A : Access σ} {B : Access τ} {S T : Setting}

theorem Config.SearchesAlike.symm {c : Config}
    (h : c.SearchesAlike (fun _ => True) rel A S B T) :
    c.SearchesAlike (fun _ => True) (fun v w => rel w v) B T A S :=
  fun f hf r hr => (h f hf r hr).symm

namespace Alike

variable (h : Alike (fun _ => True) rel A S B T)

include h

protected theorem symm : Alike (fun _ => True) (fun v w => rel w v) B T A S where
  back _ _ _ := trivial
  note m _ _ hv := h.note m _ _ hv
  label u := (h.label u).symm
  contents u := (h.contents u).symm

theorem passes_back {m : Moment σ} {v : τ} {n : Moment τ}
    (hsearch : ∀ k, Passes A S m k → k.SearchesAlike (fun _ => True) rel A S B T)
    (hv : rel m.world v) (hn : Passes B T ⟨m.toConfig, v⟩ n) :
    ∃ w, rel w n.world ∧ Passes A S m ⟨n.toConfig, w⟩ := by
  induction hn with
  | refl => exact ⟨m.world, hv, .refl⟩
  | tail _ hn ih =>
    obtain ⟨w, hw, hm⟩ := ih
    obtain ⟨-, hgo⟩ := h.symm.next (hsearch _ hm).symm hn trivial
    obtain ⟨w', hw', hnext⟩ := hgo w hw
    exact ⟨w', hw', hm.tail hnext⟩

variable {requested : List Installable} {w : σ} {v : τ}

/-- Where one run does not end, the other one does not: its ending would be led back to one. -/
theorem resolveAll_eq_none (hsearch : ∀ m, Passes A S (.start requested w) m →
      m.SearchesAlike (fun _ => True) rel A S B T) (hv : rel w v)
    (he : resolveAll A S requested {} w = none) : resolveAll B T requested {} v = none := by
  refine Option.eq_none_iff_forall_not_mem.mpr fun e heB => ?_
  have harrive : Arrives B T [] (.start requested v) e := arrives_of_resolveAll heB
  have hend : Moment.ending A S (.start requested w) = none := (ending_roots _ _ _).trans he
  cases e with
  | ok p v' =>
    obtain ⟨w', -, hp⟩ := h.passes_back hsearch hv harrive
    rw [ending_of_passes hp] at hend
    cases (ending_finished p w').symm.trans hend
  | error f v' =>
    obtain ⟨n, hn, hs⟩ := harrive
    obtain ⟨w', hw', hp⟩ := h.passes_back hsearch hv hn
    obtain ⟨-, hgo⟩ := h.symm.stops (hsearch _ hp).symm hs trivial
    obtain ⟨w'', -, hstop⟩ := hgo w' hw'
    rw [ending_of_passes hp] at hend
    cases (ending_of_stops hstop).symm.trans hend

theorem resolve (hmode : S.mode = T.mode)
    (hsearch : ∀ m, Passes A S (.start requested w) m →
      m.SearchesAlike (fun _ => True) rel A S B T) (hv : rel w v) :
    SameEnd rel (resolve B T requested v) (resolve A S requested w) := by
  cases he : resolveAll A S requested {} w with
  | none =>
    rw [Resolution.resolve, Resolution.resolve, he, h.resolveAll_eq_none hsearch hv he]
    exact ⟨v, hv, rfl⟩
  | some e =>
    have harrive : Arrives A S [] (.start requested w) e := arrives_of_resolveAll he
    cases e with
    | ok p w' =>
      obtain ⟨-, hgo⟩ := h.passes hsearch harrive trivial
      obtain ⟨v', hv', hp⟩ := hgo v hv
      rw [resolve_of_passes harrive, resolve_of_passes hp, hmode]
      exact ⟨_, h.note _ _ _ hv', rfl⟩
    | error f w' =>
      obtain ⟨m, hm, hs⟩ := harrive
      obtain ⟨-, hgo⟩ := h.passes hsearch hm trivial
      obtain ⟨v₁, hv₁, hp⟩ := hgo v hv
      obtain ⟨-, hstop⟩ := h.stops (hsearch m hm) hs trivial
      obtain ⟨v₂, hv₂, hsB⟩ := hstop v₁ hv₁
      rw [resolve_of_stops hm hs, resolve_of_stops hp hsB]
      exact ⟨v₂, hv₂, rfl⟩

end Alike

end Provision.Resolution
