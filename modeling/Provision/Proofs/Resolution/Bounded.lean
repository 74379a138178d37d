import Provision.Resolution.Traversal

namespace Provision.Resolution

variable {σ : Type}

/-- Takes at most `n` steps. -/
def Progress.runWithin (A : Access σ) (S : Setting) :
    Nat → Progress → List Frame → σ → Ending σ Progress
  | _, p, [], w => some (.ok p w)
  | 0, _, _ :: _, _ => none
  | n + 1, p, frame :: stack, w =>
    match step A S p frame stack w with
    | .ok (p, stack) w => p.runWithin A S n stack w
    | .error f w => some (.error f w)

def resolveAllWithin (A : Access σ) (S : Setting) (n : Nat) :
    List Installable → Progress → σ → Ending σ Progress
  | [], p, w => some (.ok p w)
  | u :: us, p, w =>
    match start A S u p w with
    | .ok (p, stack) w =>
      match p.runWithin A S n stack w with
      | some (.ok p w) => resolveAllWithin A S n us p w
      | ending => ending
    | .error f w => some (.error f w)

def resultWithin? (A : Access σ) (S : Setting) (n : Nat) (requested : List Installable) (w : σ) :
    Option Result :=
  match resolveAllWithin A S n requested {} w with
  | some (.ok p _) => some (p.result S.mode)
  | _ => none

def failureWithin? (A : Access σ) (S : Setting) (n : Nat) (requested : List Installable) (w : σ) :
    Option Failure :=
  match resolveAllWithin A S n requested {} w with
  | some (.error f _) => some f
  | _ => none

variable {A : Access σ} {S : Setting}

theorem run_of_runWithin {n : Nat} {p : Progress} {stack : List Frame} {w : σ}
    {e : EStateM.Result Failure σ Progress} (h : p.runWithin A S n stack w = some e) :
    p.run A S stack w = some e := by
  induction n generalizing p stack w with
  | zero =>
    cases stack with
    | nil => rwa [Progress.run]
    | cons frame stack => cases h
  | succ n ih =>
    cases stack with
    | nil => rwa [Progress.run]
    | cons frame stack =>
      rw [Progress.run]
      rw [Progress.runWithin] at h
      revert h
      obtain ⟨⟨p, stack⟩, w⟩ | ⟨f, w⟩ := step A S p frame stack w
      · exact ih
      · exact id

theorem resolveAll_of_resolveAllWithin {n : Nat} {us : List Installable} {p : Progress} {w : σ}
    {e : EStateM.Result Failure σ Progress} (h : resolveAllWithin A S n us p w = some e) :
    resolveAll A S us p w = some e := by
  induction us generalizing p w with
  | nil => exact h
  | cons u us ih =>
    rw [resolveAllWithin] at h
    rw [resolveAll, resolveUnit]
    revert h
    obtain ⟨⟨p, stack⟩, w⟩ | ⟨f, w⟩ := start A S u p w
    · intro h
      dsimp only at h ⊢
      cases hr : p.runWithin A S n stack w with
      | none =>
        rw [hr] at h
        cases h
      | some ending =>
        rw [hr] at h
        rw [run_of_runWithin hr]
        obtain ⟨p, w⟩ | ⟨f, w⟩ := ending
        · exact ih h
        · exact h
    · exact id

theorem resolve_of_resultWithin? {n : Nat} {requested : List Installable} {w : σ} {R : Result}
    (h : resultWithin? A S n requested w = some R) :
    ∃ w', resolve A S requested w = .ok R w' := by
  unfold resultWithin? at h
  split at h
  case h_1 p v hp =>
    cases h
    unfold resolve
    rw [resolveAll_of_resolveAllWithin hp]
    exact ⟨_, rfl⟩
  case h_2 => cases h

theorem resolve_of_failureWithin? {n : Nat} {requested : List Installable} {w : σ} {f : Failure}
    (h : failureWithin? A S n requested w = some f) :
    ∃ w', resolve A S requested w = .error f w' := by
  unfold failureWithin? at h
  split at h
  case h_1 g v hp =>
    cases h
    unfold resolve
    rw [resolveAll_of_resolveAllWithin hp]
    exact ⟨_, rfl⟩
  case h_2 => cases h

end Provision.Resolution
