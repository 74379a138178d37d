import Provision.Yaml.Cursor

namespace Provision.Yaml

/-- Which states belong together, and what is still known of two states later on. -/
structure Pairing (σ : Type) where
  Paired : σ → σ → Prop
  Grows : σ → σ → σ → σ → Prop
  refl (s s' : σ) : Grows s s' s s'
  trans {s s' r r' t t' : σ} : Grows s s' r r' → Grows r r' t t' → Grows s s' t t'

variable {σ α β : Type} {R : Pairing σ} {p p' : StateT σ (Except Fault) α}
  {q : α → StateT σ (Except Fault) β}
  {P : σ → σ → α → Prop} {Q : σ → σ → β → Prop} {s s' r r' : σ}

def Lockstep (R : Pairing σ) (p : StateT σ (Except Fault) α) (P : σ → σ → α → Prop) (s s' : σ) : Prop :=
  (∃ f, p.run s = .error f ∧ p.run s' = .error f) ∨
    ∃ a r r', p.run s = .ok (a, r) ∧ p.run s' = .ok (a, r') ∧ R.Paired r r' ∧ R.Grows s s' r r' ∧ P r r' a

theorem lockstep_pure {a : α} (h : R.Paired s s') (hP : P s s' a) : Lockstep R (pure a) P s s' :=
  Or.inr ⟨a, s, s', rfl, rfl, h, R.refl s s', hP⟩

theorem lockstep_throw {f : Fault} : Lockstep R (throw f) P s s' :=
  Or.inl ⟨f, rfl, rfl⟩

theorem lockstep_throw_bind {f : Fault} : Lockstep R (throw f >>= q) Q s s' :=
  Or.inl ⟨f, rfl, rfl⟩

theorem lockstep_bind (hp : Lockstep R p P s s')
    (hq : ∀ a r r', R.Paired r r' → R.Grows s s' r r' → P r r' a → Lockstep R (q a) Q r r') :
    Lockstep R (p >>= q) Q s s' := by
  unfold Lockstep
  simp only [StateT.run_bind]
  obtain ⟨f, hs, hs'⟩ | ⟨a, r, r', hs, hs', hr, hgrows, hP⟩ := hp
  · rw [hs, hs']
    exact Or.inl ⟨f, rfl, rfl⟩
  · rw [hs, hs']
    obtain ⟨f, hr, hr'⟩ | ⟨b, t, t', hr, hr', ht, hgrows', hQ⟩ := hq a r r' hr hgrows hP
    · exact Or.inl ⟨f, hr, hr'⟩
    · exact Or.inr ⟨b, t, t', hr, hr', ht, R.trans hgrows hgrows', hQ⟩

theorem lockstep_imp {P' : σ → σ → α → Prop} (hp : Lockstep R p P s s')
    (hPP' : ∀ r r' a, P r r' a → P' r r' a) : Lockstep R p P' s s' :=
  hp.imp_right fun ⟨a, r, r', hs, hs', hr, hgrows, hP⟩ => ⟨a, r, r', hs, hs', hr, hgrows, hPP' r r' a hP⟩

theorem lockstep_get {q : σ → StateT σ (Except Fault) β} (hsame : q s' = q s)
    (h : Lockstep R (q s) Q s s') : Lockstep R (get >>= q) Q s s' := by
  unfold Lockstep at *
  simp only [StateT.run_bind, StateT.run_get, pure_bind, hsame]
  exact h

theorem lockstep_of_run {p' : StateT σ (Except Fault) α} (hs : p.run s = p'.run r)
    (hs' : p.run s' = p'.run r')
    (hgrows : R.Grows s s' r r') (h : Lockstep R p' P r r') : Lockstep R p P s s' := by
  unfold Lockstep
  rw [hs, hs']
  exact h.imp_right fun ⟨a, t, t', ht, ht', hpaired, hgrows', hP⟩ =>
    ⟨a, t, t', ht, ht', hpaired, R.trans hgrows hgrows', hP⟩

/-! ### Lists -/

theorem lockstep_foldlM {f : β → α → StateT σ (Except Fault) β} {I : σ → σ → β → Prop} :
    ∀ {l : List α} {b : β} {s s' : σ}, R.Paired s s' → I s s' b →
      (∀ a ∈ l, ∀ b r r', R.Paired r r' → R.Grows s s' r r' → I r r' b → Lockstep R (f b a) I r r') →
      Lockstep R (l.foldlM f b) I s s'
  | [], b, _, _, h, hI, _ => lockstep_pure h hI
  | a :: l, b, s, s', h, hI, hf => by
    obtain ⟨ha, hl⟩ := List.forall_mem_cons.mp hf
    rw [List.foldlM_cons]
    refine lockstep_bind (ha b s s' h (R.refl s s') hI) fun b' r r' hr hgrows hI' => ?_
    exact lockstep_foldlM hr hI' fun a ha b t t' ht hgrows' => hl a ha b t t' ht (R.trans hgrows hgrows')

theorem lockstep_forM {f : α → StateT σ (Except Fault) PUnit} :
    ∀ {l : List α} {s s' : σ}, R.Paired s s' →
      (∀ a ∈ l, ∀ r r', R.Paired r r' → R.Grows s s' r r' → Lockstep R (f a) (fun _ _ _ => True) r r') →
      Lockstep R (l.forM f) (fun _ _ _ => True) s s'
  | [], _, _, h, _ => lockstep_pure h trivial
  | a :: l, s, s', h, hf => by
    obtain ⟨ha, hl⟩ := List.forall_mem_cons.mp hf
    refine lockstep_bind (ha s s' h (R.refl s s')) fun _ r r' hr hgrows _ => ?_
    exact lockstep_forM hr fun a ha t t' ht hgrows' => hl a ha t t' ht (R.trans hgrows hgrows')

theorem lockstep_mapM {f : α → StateT σ (Except Fault) β} :
    ∀ {l : List α} {s s' : σ}, R.Paired s s' →
      (∀ a ∈ l, ∀ r r', R.Paired r r' → R.Grows s s' r r' → Lockstep R (f a) (fun _ _ _ => True) r r') →
      Lockstep R (l.mapM f) (fun _ _ _ => True) s s'
  | [], _, _, h, _ => by
    rw [List.mapM_nil]
    exact lockstep_pure h trivial
  | a :: l, s, s', h, hf => by
    obtain ⟨ha, hl⟩ := List.forall_mem_cons.mp hf
    rw [List.mapM_cons]
    refine lockstep_bind (ha s s' h (R.refl s s')) fun b r r' hr hgrows _ => ?_
    have hrest := lockstep_mapM hr fun a ha t t' ht hgrows' => hl a ha t t' ht (R.trans hgrows hgrows')
    exact lockstep_bind hrest fun bs t t' ht _ _ => lockstep_pure ht trivial

end Provision.Yaml
