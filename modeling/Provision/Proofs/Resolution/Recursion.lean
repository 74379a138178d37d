import Provision.Resolution.Traversal

namespace Provision.Resolution

variable {σ : Type}

/-- What becomes of a requirement of a unit: it is skipped where it is settled at this moment and
searched where it is not. A provider is marked as resolving it and is still to be visited. -/
def consider (A : Access σ) (S : Setting) (u : Installable) (path : String) (r : Requirement)
    (p : Progress) : EStateM Failure σ (Progress × Option (Installable × String)) := do
  if p.state.isResolved r then
    A.debug ("Skip " ++ r.text ++ " because it is already resolved...")
    return (p, none)
  else if p.state.isFailed r then
    A.debug ("Skip " ++ r.text ++ " because it has already failed...")
    return (p, none)
  else
    A.debug ("Try to resolve " ++ r.text ++ "...")
    match ← search A S r u path with
    | .provider q =>
      let label ← A.label q
      return ({ p with state := p.state.addResolved r },
        some (q, path ++ " -> " ++ r.name ++ " -> " ++ label))
    | .dropped => return (p, none)
    | .failed => return ({ p with state := p.state.addFailed r }, none)

mutual

/-- Visits a unit by recursion, unless it or one of its id and version is visited already. -/
def Progress.descend (A : Access σ) (S : Setting) (u : Installable) (path : String) (p : Progress)
    (w : σ) : Ending σ Progress :=
  if p.holds u then
    let message := "Skip resolving of " ++ u.text ++ ", already resolved or resolving in progress..."
    some (.ok p (A.note ⟨.debug, message, []⟩ w))
  else
    match visit A S u p w with
    | .ok p w => p |>.descendAll A S u path u.requires w
    | .error f w => some (.error f w)
partial_fixpoint

def Progress.descendAll (A : Access σ) (S : Setting) (u : Installable) (path : String)
    (rs : List Requirement) (p : Progress) (w : σ) : Ending σ Progress :=
  match rs with
  | [] => some (.ok p w)
  | r :: rs =>
    match consider A S u path r p w with
    | .ok (p, none) w => p |>.descendAll A S u path rs w
    | .ok (p, some (q, path')) w =>
      bind (m := Option) (p |>.descend A S q path' w) fun
        | .ok p w => p |>.descendAll A S u path rs w
        | .error f w => some (.error f w)
    | .error f w => some (.error f w)
partial_fixpoint

end

/-- Goes on after a computation that ends without a failure. -/
def Ending.andThen {α β : Type} (e : Ending σ α) (k : α → σ → Ending σ β) : Ending σ β :=
  match e with
  | some (.ok a w) => k a w
  | some (.error f w) => some (.error f w)
  | none => none

theorem Ending.andThen_assoc {α β γ : Type} (e : Ending σ α) (k : α → σ → Ending σ β)
    (l : β → σ → Ending σ γ) :
    (e.andThen k).andThen l = e.andThen fun a w => (k a w).andThen l := by
  obtain _ | ⟨a, w⟩ | ⟨f, w⟩ := e <;> rfl

/-- What the frames of a stack still owe, by recursion. -/
def unwind (A : Access σ) (S : Setting) : List Frame → Progress → σ → Ending σ Progress
  | [], p, w => some (.ok p w)
  | frame :: stack, p, w =>
    (p.descendAll A S frame.unit frame.path frame.pending w).andThen (unwind A S stack)

variable {A : Access σ} {S : Setting}

theorem descendAll_cons (u : Installable) (path : String) (r : Requirement)
    (rs : List Requirement) (p : Progress) (w : σ) :
    p.descendAll A S u path (r :: rs) w =
      match consider A S u path r p w with
      | .ok (p, none) w => p.descendAll A S u path rs w
      | .ok (p, some (q, path')) w =>
        (p.descend A S q path' w).andThen fun p w => p.descendAll A S u path rs w
      | .error f w => some (.error f w) := by
  rw [Progress.descendAll]
  obtain ⟨⟨p, _ | ⟨q, path'⟩⟩, w⟩ | ⟨f, w⟩ := consider A S u path r p w
  · rfl
  · dsimp only
    obtain _ | ⟨p, w⟩ | ⟨f, w⟩ := p.descend A S q path' w <;> rfl
  · rfl

theorem settle_apply (r : Requirement) (frame : Frame) (p : Progress) (stack : List Frame) (w : σ) :
    settle A S r frame p stack w =
      match consider A S frame.unit frame.path r p w with
      | .ok (p, none) w => .ok (p, stack) w
      | .ok (p, some (q, path)) w => enter A S q path p stack w
      | .error f w => .error f w := by
  unfold settle consider
  cases hr : p.state.isResolved r with
  | true => rfl
  | false =>
    cases hf : p.state.isFailed r with
    | true => rfl
    | false =>
      simp only [Bool.false_eq_true, ↓reduceIte, bind, EStateM.bind, Access.debug, Access.log]
      obtain ⟨q | _ | _, w⟩ | ⟨f, w⟩ := search A S r frame.unit frame.path _
      · dsimp only [EStateM.bind]
        obtain ⟨label, w⟩ | ⟨f, w⟩ := A.label q w <;> rfl
      · rfl
      · rfl
      · rfl

theorem enter_of_holds {u : Installable} {p : Progress} (h : p.holds u) (path : String)
    (stack : List Frame) (w : σ) :
    enter A S u path p stack w = .ok (p, stack)
      (A.note ⟨.debug, "Skip resolving of " ++ u.text ++
        ", already resolved or resolving in progress...", []⟩ w) := by
  unfold enter
  rw [if_pos h]
  rfl

theorem enter_of_not_holds {u : Installable} {p : Progress} (h : p.holds u = false) (path : String)
    (stack : List Frame) (w : σ) :
    enter A S u path p stack w =
      match visit A S u p w with
      | .ok p w => .ok (p, ⟨u, path, u.requires⟩ :: stack) w
      | .error f w => .error f w := by
  unfold enter
  rw [if_neg (by simp [h])]
  simp only [bind, EStateM.bind]
  obtain ⟨p, w⟩ | ⟨f, w⟩ := visit A S u p w <;> rfl

def resume {α : Type} (r : EStateM.Result Failure σ (Progress × List Frame))
    (k : List Frame → Progress → σ → Ending σ α) : Ending σ α :=
  match r with
  | .ok (p, stack) w => k stack p w
  | .error f w => some (.error f w)

theorem resume_enter (u : Installable) (path : String) (p : Progress) (stack : List Frame) (w : σ) :
    resume (enter A S u path p stack w) (unwind A S) =
      (p.descend A S u path w).andThen (unwind A S stack) := by
  cases h : p.holds u with
  | true =>
    rw [enter_of_holds h, Progress.descend, if_pos h]
    rfl
  | false =>
    rw [enter_of_not_holds h, Progress.descend, if_neg (by simp [h])]
    obtain ⟨p, w⟩ | ⟨f, w⟩ := visit A S u p w <;> rfl

theorem resume_step (p : Progress) (frame : Frame) (stack : List Frame) (w : σ) :
    resume (step A S p frame stack w) (unwind A S) = unwind A S (frame :: stack) p w := by
  obtain ⟨u, path, rs⟩ := frame
  cases rs with
  | nil =>
    rw [unwind, Progress.descendAll]
    rfl
  | cons r rs =>
    rw [unwind, descendAll_cons]
    simp only [step, settle_apply]
    obtain ⟨⟨p, _ | ⟨q, path'⟩⟩, w⟩ | ⟨f, w⟩ := consider A S u path r p w
    · rfl
    · dsimp only
      rw [resume_enter, Ending.andThen_assoc]
      rfl
    · rfl

theorem run_cons (p : Progress) (frame : Frame) (stack : List Frame) (w : σ) :
    p.run A S (frame :: stack) w =
      resume (step A S p frame stack w) fun stack p w => p.run A S stack w := by
  rw [Progress.run]
  obtain ⟨⟨p, stack⟩, w⟩ | ⟨f, w⟩ := step A S p frame stack w <;> rfl

theorem unwind_of_run {p : Progress} {stack : List Frame} {w : σ}
    {e : EStateM.Result Failure σ Progress} (h : p.run A S stack w = some e) :
    unwind A S stack p w = some e := by
  revert h
  apply Progress.run.partial_correctness A S (fun p stack w e => unwind A S stack p w = some e)
  intro run ih p stack w e h
  cases stack with
  | nil => exact h
  | cons frame stack =>
    rw [← resume_step]
    dsimp only at h
    revert h
    obtain ⟨⟨p, stack⟩, w⟩ | ⟨f, w⟩ := step A S p frame stack w
    · exact ih p stack w e
    · exact id

theorem run_nil_pending (u : Installable) (path : String) (stack : List Frame) (p : Progress)
    (w : σ) : p.run A S (⟨u, path, []⟩ :: stack) w = p.run A S stack w := by
  rw [run_cons]
  rfl

theorem run_cons_pending (u : Installable) (path : String) (r : Requirement)
    (rs : List Requirement) (stack : List Frame) (p : Progress) (w : σ) :
    p.run A S (⟨u, path, r :: rs⟩ :: stack) w =
      match consider A S u path r p w with
      | .ok (p, none) w => p.run A S (⟨u, path, rs⟩ :: stack) w
      | .ok (p, some (q, path')) w =>
        resume (enter A S q path' p (⟨u, path, rs⟩ :: stack) w) fun stack p w => p.run A S stack w
      | .error f w => some (.error f w) := by
  rw [run_cons]
  simp only [step, settle_apply]
  obtain ⟨⟨p, _ | ⟨q, path'⟩⟩, w⟩ | ⟨f, w⟩ := consider A S u path r p w <;> rfl

/-- Above any stack of frames a run does first what the recursion does, and then goes on with the
frames below. -/
theorem run_of_descend :
    (∀ (u : Installable) (path : String) (p : Progress) (w : σ)
      (e : EStateM.Result Failure σ Progress), p.descend A S u path w = some e →
      ∀ stack : List Frame,
        resume (enter A S u path p stack w) (fun stack p w => p.run A S stack w) =
          Ending.andThen (some e) fun p w => p.run A S stack w) ∧
    (∀ (u : Installable) (path : String) (rs : List Requirement) (p : Progress) (w : σ)
      (e : EStateM.Result Failure σ Progress), p.descendAll A S u path rs w = some e →
      ∀ stack : List Frame, p.run A S (⟨u, path, rs⟩ :: stack) w =
        Ending.andThen (some e) fun p w => p.run A S stack w) := by
  -- The recursion need not end, so the induction is on the approximations of its least fixed point.
  apply Progress.descend.mutual_partial_correctness A S
  case h_1 =>
    intro descendAll ih u path p w e h stack
    cases hu : p.holds u with
    | true =>
      rw [if_pos hu] at h
      obtain rfl := Option.some.inj h
      rw [enter_of_holds hu]
      rfl
    | false =>
      rw [if_neg (by simp [hu])] at h
      rw [enter_of_not_holds hu]
      revert h
      obtain ⟨p, w⟩ | ⟨f, w⟩ := visit A S u p w
      · exact fun h => ih _ _ _ _ _ _ h stack
      · intro h
        obtain rfl := Option.some.inj h
        rfl
  case h_2 =>
    intro descend descendAll ihd iha u path rs p w e h stack
    cases rs with
    | nil =>
      obtain rfl := Option.some.inj h
      exact run_nil_pending u path stack p w
    | cons r rs =>
      rw [run_cons_pending]
      dsimp only at h
      revert h
      obtain ⟨⟨p, _ | ⟨q, path'⟩⟩, w⟩ | ⟨f, w⟩ := consider A S u path r p w
      · exact fun h => iha _ _ _ _ _ _ h stack
      · intro h
        obtain ⟨e', hd, h⟩ := Option.bind_eq_some_iff.mp h
        dsimp only
        rw [ihd _ _ _ _ _ hd]
        obtain ⟨p, w⟩ | ⟨f, w⟩ := e'
        · exact iha _ _ _ _ _ _ h stack
        · obtain rfl := Option.some.inj h
          rfl
      · intro h
        obtain rfl := Option.some.inj h
        rfl

theorem run_eq_unwind (stack : List Frame) (p : Progress) (w : σ) :
    p.run A S stack w = unwind A S stack p w := by
  -- Both sides are least fixed points, so each ending of one is shown to be one of the other.
  apply Option.ext
  intro e
  refine ⟨unwind_of_run, ?_⟩
  induction stack generalizing p w with
  | nil =>
    rw [Progress.run]
    exact id
  | cons frame stack ih =>
    intro h
    rw [unwind] at h
    cases hd : p.descendAll A S frame.unit frame.path frame.pending w with
    | none =>
      rw [hd] at h
      cases h
    | some e' =>
      rw [run_of_descend.2 _ _ _ _ _ _ hd stack]
      rw [hd] at h
      obtain ⟨p, w⟩ | ⟨f, w⟩ := e'
      · exact ih p w h
      · exact h

def descendEach (A : Access σ) (S : Setting) :
    List Installable → Progress → σ → Ending σ Progress
  | [], p, w => some (.ok p w)
  | u :: us, p, w =>
    match A.label u w with
    | .ok path w => (p.descend A S u path w).andThen (descendEach A S us)
    | .error f w => some (.error f w)

/-- The resolution of units by recursion. -/
def resolveDepthFirst (A : Access σ) (S : Setting) (requested : List Installable) :
    EStateM Failure σ Result := fun w =>
  conclude A S w (descendEach A S requested {} w)

theorem resolveUnit_eq (u : Installable) (p : Progress) (w : σ) :
    resolveUnit A S u p w =
      match A.label u w with
      | .ok path w => p.descend A S u path w
      | .error f w => some (.error f w) := by
  unfold resolveUnit start
  simp only [bind, EStateM.bind]
  obtain ⟨path, w⟩ | ⟨f, w⟩ := A.label u w
  · calc
      _ = resume (enter A S u path p [] w) fun stack p w => p.run A S stack w := by
        dsimp only
        obtain ⟨⟨p, stack⟩, w⟩ | ⟨f, w⟩ := enter A S u path p [] w <;> rfl
      _ = resume (enter A S u path p [] w) (unwind A S) := by
        rw [show (fun stack p w => p.run A S stack w) = unwind A S from
          funext fun stack => funext fun p => funext fun w => run_eq_unwind stack p w]
      _ = (p.descend A S u path w).andThen (unwind A S []) := resume_enter u path p [] w
      _ = p.descend A S u path w := by
        obtain _ | ⟨p, w⟩ | ⟨f, w⟩ := p.descend A S u path w <;> rfl
  · rfl

theorem resolveAll_eq_descendEach (us : List Installable) (p : Progress) (w : σ) :
    resolveAll A S us p w = descendEach A S us p w := by
  induction us generalizing p w with
  | nil => rfl
  | cons u us ih =>
    rw [resolveAll, resolveUnit_eq, descendEach]
    obtain ⟨path, w⟩ | ⟨f, w⟩ := A.label u w
    · dsimp only
      obtain _ | ⟨p, w⟩ | ⟨f, w⟩ := p.descend A S u path w
      · rfl
      · exact ih p w
      · rfl
    · rfl

/-- Resolution with a stack of frames is recursive depth-first search: the same result or the same
failure in the same world, and no ending for the one where there is none for the other. -/
theorem resolve_eq_resolveDepthFirst (A : Access σ) (S : Setting) (requested : List Installable) :
    resolve A S requested = resolveDepthFirst A S requested := by
  funext w
  unfold resolve resolveDepthFirst
  rw [resolveAll_eq_descendEach]

end Provision.Resolution
