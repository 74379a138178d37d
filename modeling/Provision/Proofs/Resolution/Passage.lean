import Mathlib.Logic.Relation
import Provision.Proofs.Resolution.Recursion

namespace Provision.Resolution

variable {σ : Type}

/-- Where a run stands: the requested units not yet looked at, what it has come to, and the units on
the way. -/
structure Config where
  roots : List Installable
  progress : Progress
  stack : List Frame

structure Moment (σ : Type) extends Config where
  world : σ

def Moment.start (requested : List Installable) (w : σ) : Moment σ :=
  ⟨⟨requested, {}, []⟩, w⟩

def Moment.finished (p : Progress) (w : σ) : Moment σ :=
  ⟨⟨[], p, []⟩, w⟩

/-- From one moment to the next, by a step or by turning to a requested unit. -/
inductive Next (A : Access σ) (S : Setting) : Moment σ → Moment σ → Prop where
  | root {u us p q stack w v} (h : start A S u p w = .ok (q, stack) v) :
      Next A S ⟨⟨u :: us, p, []⟩, w⟩ ⟨⟨us, q, stack⟩, v⟩
  | step {us p q frame stack stack' w v} (h : step A S p frame stack w = .ok (q, stack') v) :
      Next A S ⟨⟨us, p, frame :: stack⟩, w⟩ ⟨⟨us, q, stack'⟩, v⟩

/-- What comes next fails. -/
inductive Stops (A : Access σ) (S : Setting) : Moment σ → Failure → σ → Prop where
  | root {u us p w f v} (h : start A S u p w = .error f v) :
      Stops A S ⟨⟨u :: us, p, []⟩, w⟩ f v
  | step {us p frame stack w f v} (h : step A S p frame stack w = .error f v) :
      Stops A S ⟨⟨us, p, frame :: stack⟩, w⟩ f v

abbrev Passes (A : Access σ) (S : Setting) : Moment σ → Moment σ → Prop :=
  Relation.ReflTransGen (Next A S)

/-- From a moment on a run comes to an end of its stack with units still requested, or it fails. -/
def Arrives (A : Access σ) (S : Setting) (us : List Installable) (m : Moment σ) :
    EStateM.Result Failure σ Progress → Prop
  | .ok p w => Passes A S m ⟨⟨us, p, []⟩, w⟩
  | .error f w => ∃ n, Passes A S m n ∧ Stops A S n f w

def Moment.ending (A : Access σ) (S : Setting) (m : Moment σ) : Ending σ Progress :=
  (m.progress.run A S m.stack m.world).andThen (resolveAll A S m.roots)

variable {A : Access σ} {S : Setting}

theorem Arrives.of_passes {us : List Installable} {m n : Moment σ}
    {e : EStateM.Result Failure σ Progress} (hm : Passes A S m n) (h : Arrives A S us n e) :
    Arrives A S us m e := by
  cases e with
  | ok p w => exact hm.trans h
  | error f w =>
    obtain ⟨k, hk, hs⟩ := h
    exact ⟨k, hm.trans hk, hs⟩

theorem ending_roots (us : List Installable) (p : Progress) (w : σ) :
    Moment.ending A S ⟨⟨us, p, []⟩, w⟩ = resolveAll A S us p w := by
  rw [Moment.ending, Progress.run]
  rfl

theorem ending_finished (p : Progress) (w : σ) :
    (Moment.finished p w).ending A S = some (.ok p w) :=
  ending_roots [] p w

theorem resolveAll_cons (u : Installable) (us : List Installable) (p : Progress) (w : σ) :
    resolveAll A S (u :: us) p w = (resolveUnit A S u p w).andThen (resolveAll A S us) := by
  rw [resolveAll]
  obtain _ | ⟨p, w⟩ | ⟨f, w⟩ := resolveUnit A S u p w <;> rfl

theorem ending_of_next {m n : Moment σ} (h : Next A S m n) : m.ending A S = n.ending A S := by
  cases h with
  | root h => rw [ending_roots, resolveAll_cons, resolveUnit, h, Moment.ending]
  | step h => simp only [Moment.ending, run_cons, h, resume]

theorem ending_of_passes {m n : Moment σ} (h : Passes A S m n) :
    m.ending A S = n.ending A S := by
  induction h with
  | refl => rfl
  | tail _ h ih => exact ih.trans (ending_of_next h)

theorem ending_of_stops {m : Moment σ} {f : Failure} {w : σ} (h : Stops A S m f w) :
    m.ending A S = some (.error f w) := by
  cases h with
  | root h =>
    rw [ending_roots, resolveAll_cons, resolveUnit, h]
    rfl
  | step h =>
    simp only [Moment.ending, run_cons, h, resume]
    rfl

theorem arrives_of_run {p : Progress} {stack : List Frame} {w : σ}
    {e : EStateM.Result Failure σ Progress} (h : p.run A S stack w = some e)
    (us : List Installable) : Arrives A S us ⟨⟨us, p, stack⟩, w⟩ e := by
  -- The stack need not get smaller, but an ending comes of finitely many steps.
  revert h
  apply Progress.run.partial_correctness A S fun p stack w e =>
    Arrives A S us ⟨⟨us, p, stack⟩, w⟩ e
  intro run ih p stack w e h
  cases stack with
  | nil =>
    obtain rfl := Option.some.inj h
    exact .refl
  | cons frame stack =>
    dsimp only at h
    cases hs : step A S p frame stack w with
    | ok next v =>
      rw [hs] at h
      exact Arrives.of_passes (.single (.step hs)) (ih _ _ _ _ h)
    | error f v =>
      rw [hs] at h
      obtain rfl := Option.some.inj h
      exact ⟨_, .refl, .step hs⟩

theorem arrives_of_resolveAll {us : List Installable} {p : Progress} {w : σ}
    {e : EStateM.Result Failure σ Progress} (h : resolveAll A S us p w = some e) :
    Arrives A S [] ⟨⟨us, p, []⟩, w⟩ e := by
  induction us generalizing p w with
  | nil =>
    obtain rfl := Option.some.inj h
    exact .refl
  | cons u us ih =>
    rw [resolveAll_cons, resolveUnit] at h
    cases hs : start A S u p w with
    | error f v =>
      rw [hs] at h
      obtain rfl := Option.some.inj h
      exact ⟨_, .refl, .root hs⟩
    | ok next v =>
      obtain ⟨q, stack⟩ := next
      rw [hs] at h
      refine Arrives.of_passes (.single (.root hs)) ?_
      dsimp only at h
      cases hr : q.run A S stack v with
      | none =>
        rw [hr] at h
        cases h
      | some part =>
        rw [hr] at h
        have hpart := arrives_of_run hr us
        cases part with
        | ok p' v' => exact Arrives.of_passes hpart (ih h)
        | error f v' =>
          obtain rfl := Option.some.inj h
          exact hpart

/-- A run that ends arrives at its ending from every moment that it passes. -/
theorem arrives_of_ending {m : Moment σ} {e : EStateM.Result Failure σ Progress}
    (h : m.ending A S = some e) : Arrives A S [] m e := by
  obtain ⟨⟨us, p, stack⟩, w⟩ := m
  unfold Moment.ending at h
  dsimp only at h
  cases hr : p.run A S stack w with
  | none =>
    rw [hr] at h
    cases h
  | some part =>
    rw [hr] at h
    have hpart := arrives_of_run hr us
    cases part with
    | ok q v => exact Arrives.of_passes hpart (arrives_of_resolveAll h)
    | error f v =>
      obtain rfl := Option.some.inj h
      exact hpart

variable {requested : List Installable} {w w' : σ}

theorem passes_of_resolve {R : Result} (h : resolve A S requested w = .ok R w') :
    ∃ p v, R = p.result S.mode ∧ w' = A.note R.record v ∧
      resolveAll A S requested {} w = some (.ok p v) ∧
      Passes A S (.start requested w) (.finished p v) := by
  unfold resolve conclude at h
  split at h
  case h_1 p v he =>
    cases h
    exact ⟨p, v, rfl, rfl, he, arrives_of_resolveAll he⟩
  case h_2 | h_3 => cases h

theorem stops_of_resolve {f : Failure} (h : resolve A S requested w = .error f w')
    (hf : f ≠ .exhausted) :
    ∃ m, Passes A S (.start requested w) m ∧ Stops A S m f w' := by
  unfold resolve conclude at h
  split at h
  case h_1 => cases h
  case h_2 g v he =>
    cases h
    exact arrives_of_resolveAll he
  case h_3 =>
    cases h
    exact absurd rfl hf

theorem resolve_of_passes {p : Progress} {v : σ}
    (h : Passes A S (.start requested w) (.finished p v)) :
    resolve A S requested w = .ok (p.result S.mode) (A.note (p.result S.mode).record v) := by
  have hend : resolveAll A S requested {} w = some (.ok p v) := by
    rw [← ending_roots, ← ending_finished]
    exact ending_of_passes h
  rw [resolve, hend]
  rfl

theorem resolve_of_stops {m : Moment σ} {f : Failure}
    (h : Passes A S (.start requested w) m) (hs : Stops A S m f w') :
    resolve A S requested w = .error f w' := by
  have hend : resolveAll A S requested {} w = some (.error f w') := by
    rw [← ending_roots, ← ending_of_stops hs]
    exact ending_of_passes h
  rw [resolve, hend]
  rfl

end Provision.Resolution
