import Provision.Proofs.Resolution.Accounting

namespace Provision.Resolution

variable {σ α : Type}

/-- A search: for which requirement of which unit, what was visited by then, and how it ended. -/
structure Search where
  requirement : Requirement
  unit : Installable
  visited : List Installable
  ending : Except Failure Outcome

/-- Whether a search ended with a provider or with a failure that is recorded. -/
def Search.settles (x : Search) : Bool :=
  match x.ending with
  | .ok (.provider _) | .ok .failed => true
  | .ok .dropped | .error _ => false

/-- What a run knows after a search, by how the search ended. -/
def Search.Recorded (x : Search) (before after : State) : Prop :=
  match x.ending with
  | .ok (.provider _) => after.isResolved x.requirement
  | .ok .failed => after.isFailed x.requirement
  | .ok .dropped => x.requirement.optional ∧ after = before
  | .error _ => False

def beside (x : EStateM Failure σ α) : EStateM Failure (σ × List Search) α := fun (w, log) =>
  match x w with
  | .ok a w => .ok a (w, log)
  | .error f w => .error f (w, log)

def Access.beside (A : Access σ) : Access (σ × List Search) where
  list s := Resolution.beside (A.list s)
  materialize u := Resolution.beside (A.materialize u)
  describe s := Resolution.beside (A.describe s)
  note m v := (A.note m v.1, v.2)

def loggedSearch (A : Access σ) (S : Setting) (visited : List Installable) (r : Requirement)
    (u : Installable) (path : String) : EStateM Failure (σ × List Search) Outcome := fun (w, log) =>
  match search A S r u path w with
  | .ok o w => .ok o (w, log ++ [⟨r, u, visited, .ok o⟩])
  | .error f w => .error f (w, log ++ [⟨r, u, visited, .error f⟩])

/-- Settles one requirement of the unit on top of the stack, with a search that is left open. -/
def settleWith (A : Access σ) (S : Setting)
    (find : Requirement → Installable → String → EStateM Failure σ Outcome) (r : Requirement)
    (frame : Frame) (p : Progress) (stack : List Frame) :
    EStateM Failure σ (Progress × List Frame) := do
  if p.state.isResolved r then
    A.debug ("Skip " ++ r.text ++ " because it is already resolved...")
    return (p, stack)
  else if p.state.isFailed r then
    A.debug ("Skip " ++ r.text ++ " because it has already failed...")
    return (p, stack)
  else
    A.debug ("Try to resolve " ++ r.text ++ "...")
    match ← find r frame.unit frame.path with
    | .provider u =>
      let path := frame.path ++ " -> " ++ r.name ++ " -> " ++ (← A.label u)
      enter A S u path { p with state := p.state.addResolved r } stack
    | .dropped => return (p, stack)
    | .failed => return ({ p with state := p.state.addFailed r }, stack)

/-- The searches that are made by what comes next at a moment, whether it fails or not. -/
def Moment.searches (A : Access σ) (S : Setting) (m : Moment σ) : List Search :=
  match m.stack with
  | ⟨u, path, r :: rs⟩ :: stack =>
    (endWorld (settleWith A.beside S (loggedSearch A S m.progress.state.units) r
      ⟨u, path, r :: rs⟩ m.progress (⟨u, path, rs⟩ :: stack) (m.world, []))).2
  | _ => []

def Moment.next? (A : Access σ) (S : Setting) (m : Moment σ) : Option (Moment σ) :=
  match m with
  | ⟨⟨us, p, frame :: stack⟩, w⟩ =>
    match step A S p frame stack w with
    | .ok (q, stack) v => some ⟨⟨us, q, stack⟩, v⟩
    | .error _ _ => none
  | ⟨⟨u :: us, p, []⟩, w⟩ =>
    match Resolution.start A S u p w with
    | .ok (q, stack) v => some ⟨⟨us, q, stack⟩, v⟩
    | .error _ _ => none
  | ⟨⟨[], _, []⟩, _⟩ => none

/-- The searches that are made at a moment and after it, until so many moments have passed. -/
def trail (A : Access σ) (S : Setting) : Nat → Moment σ → List Search
  | 0, _ => []
  | n + 1, m => m.searches A S ++ (m.next? A S).elim [] (trail A S n)

variable {A : Access σ} {S : Setting} {w₀ : σ}

theorem settleWith_search : settleWith A S (search A S) = settle A S := rfl

theorem next_of_next? {m n : Moment σ} (h : m.next? A S = some n) : Next A S m n := by
  unfold Moment.next? at h
  split at h
  · split at h
    case h_1 hs =>
      cases h
      exact .step hs
    case h_2 => cases h
  · split at h
    case h_1 hs =>
      cases h
      exact .root hs
    case h_2 => cases h
  · cases h

theorem beside_keeps {x : EStateM Failure σ α} (v : σ × List Search) :
    (endWorld (beside x v)).2 = v.2 := by
  obtain ⟨w, log⟩ := v
  unfold beside
  dsimp only
  cases x w <;> rfl

theorem mirrored_beside (A : Access σ) (log : List Search) :
    A.beside.Mirrored (fun _ => True) (fun v v' => v = v' ∧ v.2 = log) A.beside := by
  refine mirrored_self (fun q v hv => ?_) fun _ _ hv => hv
  cases q with
  | list s | materialize u | describe s => exact (beside_keeps v).trans hv

/-- A requirement that is neither resolved nor failed is searched once, and no other one is. -/
theorem searches_eq {m : Moment σ} {u : Installable} {path : String} {r : Requirement}
    {rs : List Requirement} {stack : List Frame} (h : m.stack = ⟨u, path, r :: rs⟩ :: stack) :
    m.searches A S =
      if m.progress.state.isResolved r || m.progress.state.isFailed r then []
      else [⟨r, u, m.progress.state.units, answerOf (search A S r u path
        (A.note ⟨.debug, "Try to resolve " ++ r.text ++ "...", []⟩ m.world))⟩] := by
  unfold Moment.searches settleWith
  rw [h]
  dsimp only
  by_cases hr : m.progress.state.isResolved r
  · rw [if_pos hr, hr]
    rfl
  · rw [if_neg hr, Bool.eq_false_iff.mpr hr]
    by_cases hf : m.progress.state.isFailed r
    · rw [if_pos hf, hf]
      rfl
    · rw [if_neg hf, Bool.eq_false_iff.mpr hf]
      -- The message in front of the search asks for nothing, so the list is that of the search alone.
      generalize hv : A.note ⟨.debug, "Try to resolve " ++ r.text ++ "...", []⟩ m.world = v
      have hdebug : A.beside.debug ("Try to resolve " ++ r.text ++ "...") (m.world, []) =
          .ok () (v, []) := by
        rw [← hv]
        rfl
      rw [bind_of_ok hdebug]
      have hlogged : loggedSearch A S m.progress.state.units r u path (v, []) =
          match search A S r u path v with
          | .ok o w => .ok o (w, [⟨r, u, m.progress.state.units, .ok o⟩])
          | .error f w => .error f (w, [⟨r, u, m.progress.state.units, .error f⟩]) := rfl
      cases hs : search A S r u path v with
      | error f w =>
        rw [hs] at hlogged
        rw [bind_of_error hlogged]
        rfl
      | ok o w =>
        rw [hs] at hlogged
        rw [bind_of_ok hlogged]
        cases o with
        | dropped | failed => rfl
        | provider q =>
          have hquiet := mirrored_beside A [⟨r, u, m.progress.state.units, .ok (.provider q)⟩]
          have halike := alike_of_mirrored hquiet S
          exact (mirrors_bind (halike.label q) fun _ => halike.enter q _ _ _).keeps rfl

/-- A search is made for what the unit on top of the stack needs next, where that is open. -/
theorem open_of_mem_searches {m : Moment σ} {x : Search} (hx : x ∈ m.searches A S) :
    ∃ path rs stack, m.stack = ⟨x.unit, path, x.requirement :: rs⟩ :: stack ∧
      m.progress.state.isResolved x.requirement = false ∧
      m.progress.state.isFailed x.requirement = false ∧
      x.visited = m.progress.state.units ∧
      x.ending = answerOf (search A S x.requirement x.unit path
        (A.note ⟨.debug, "Try to resolve " ++ x.requirement.text ++ "...", []⟩ m.world)) := by
  cases hstack : m.stack with
  | nil =>
    rw [Moment.searches, hstack] at hx
    cases hx
  | cons f stack =>
    obtain ⟨u, path, pending⟩ := f
    cases pending with
    | nil =>
      rw [Moment.searches, hstack] at hx
      cases hx
    | cons r rs =>
      rw [searches_eq hstack] at hx
      split at hx
      case isTrue => cases hx
      case isFalse hopen =>
        obtain rfl := List.mem_singleton.mp hx
        obtain ⟨hr, hf⟩ := Bool.or_eq_false_iff.mp (Bool.eq_false_iff.mpr hopen)
        exact ⟨path, rs, stack, rfl, hr, hf, rfl, rfl⟩

theorem subsingleton_searches (m : Moment σ) : ∀ x ∈ m.searches A S, m.searches A S = [x] := by
  intro x hx
  obtain ⟨path, rs, stack, hstack, hr, hf, -, -⟩ := open_of_mem_searches hx
  have heq := searches_eq (A := A) (S := S) hstack
  rw [hr, hf] at heq
  rw [heq] at hx
  have hsame := List.mem_singleton.mp hx
  exact heq.trans (congrArg (fun y => [y]) hsame.symm)

theorem isResolved_of_enter {u : Installable} {path : String} {p q : Progress}
    {stack stack' : List Frame} {w v : σ} (h : enter A S u path p stack w = .ok (q, stack') v)
    {r : Requirement} (hr : p.state.isResolved r) : q.state.isResolved r := by
  obtain ⟨-, ⟨-, rfl, -⟩ | ⟨-, c, -, rfl, -⟩⟩ := yields_enter u path p stack .start h
  · exact hr
  · exact State.isResolved_addUnit_of_isResolved u hr

theorem recorded_of_next {m n : Moment σ} (h : Next A S m n) {x : Search}
    (hx : x ∈ m.searches A S) : x.Recorded m.progress.state n.progress.state := by
  obtain ⟨path, rs, stack, hstack, hr, hf, -, hending⟩ := open_of_mem_searches hx
  obtain ⟨r, u, visited, ending⟩ := x
  obtain ⟨⟨us, p, frames⟩, w⟩ := m
  obtain rfl : frames = ⟨u, path, r :: rs⟩ :: stack := hstack
  cases h with
  | @step _ _ q _ _ stack' _ v hs =>
    change settle A S r ⟨u, path, r :: rs⟩ p (⟨u, path, rs⟩ :: stack) w = .ok (q, stack') v at hs
    dsimp only at hr hf hending ⊢
    unfold settle at hs
    rw [hr, hf] at hs
    obtain ⟨_, w₁, hdebug, hs⟩ := exists_of_bind_ok hs
    obtain ⟨o, w₂, hsearch, hs⟩ := exists_of_bind_ok hs
    obtain rfl : w₁ = A.note ⟨.debug, "Try to resolve " ++ r.text ++ "...", []⟩ w := by
      cases hdebug
      rfl
    rw [hsearch] at hending
    subst hending
    cases o with
    | provider q =>
      obtain ⟨label, w₃, -, hs⟩ := exists_of_bind_ok hs
      exact isResolved_of_enter hs (by simp [State.isResolved_addResolved])
    | dropped =>
      obtain ⟨-, hoptional, -⟩ := yields_search S r u path .start hsearch
      cases hs
      exact ⟨hoptional, rfl⟩
    | failed =>
      cases hs
      refine (State.isFailed_iff _ r).mpr ⟨r, ?_, rfl⟩
      dsimp only
      rw [State.failed_addFailed hr hf]
      exact List.mem_append_right _ List.mem_cons_self

theorem status_le_of_move {c d : Config} (h : Move A w₀ S c d) (r : Requirement) :
    c.progress.state.status r ≤ d.progress.state.status r := by
  cases h with
  | skipRoot | leave | skip | drop => exact le_refl _
  | @visitRoot u us p => exact State.status_le_perform p.state (.addUnit u) r
  | @fail us p u path q => exact State.status_le_perform p.state (.addFailed q) r
  | @meet us p u path q => exact State.status_le_perform p.state (.addResolved q) r
  | @visit us p u path q rs stack v =>
    exact (State.status_le_perform p.state (.addResolved q) r).trans
      (State.status_le_perform _ (.addUnit v) r)

theorem status_le_of_passes {m n : Moment σ} (h : Passes A S m n) (r : Requirement) :
    m.progress.state.status r ≤ n.progress.state.status r := by
  induction h with
  | refl => exact le_refl _
  | tail _ hn ih => exact ih.trans (status_le_of_move (move_of_next .start hn).2 r)

theorem mem_trail {n : Nat} {m : Moment σ} {x : Search} (hx : x ∈ trail A S n m) :
    ∃ k, Passes A S m k ∧ x ∈ k.searches A S := by
  induction n generalizing m with
  | zero => cases hx
  | succ n ih =>
    obtain hx | hx := List.mem_append.mp hx
    · exact ⟨m, .refl, hx⟩
    · cases hm : m.next? A S with
      | none =>
        rw [hm] at hx
        cases hx
      | some m' =>
        rw [hm] at hx
        obtain ⟨k, hk, hx⟩ := ih hx
        exact ⟨k, .head (next_of_next? hm) hk, hx⟩

/-- A search that settles its requirement is the last one for its key. -/
theorem dropped_of_next {m m' : Moment σ} (h : Next A S m m') {x : Search}
    (hx : x ∈ m.searches A S) {n : Nat} {y : Search} (hy : y ∈ trail A S n m')
    (hkey : x.requirement.key = y.requirement.key) :
    x.ending = .ok .dropped ∧ x.requirement.optional := by
  obtain ⟨k, hk, hyk⟩ := mem_trail hy
  obtain ⟨-, -, -, -, hr, hf, -, -⟩ := open_of_mem_searches hyk
  have hopen : ¬ .failed ≤ m'.progress.state.status x.requirement := by
    intro hle
    have hlater := hle.trans (status_le_of_passes hk x.requirement)
    rw [State.status_congr _ hkey, ← State.settles_iff, hr, hf] at hlater
    simp at hlater
  have hrecorded := recorded_of_next h hx
  unfold Search.Recorded at hrecorded
  split at hrecorded
  case h_1 => exact absurd ((State.settles_iff _ _).mp (Or.inl hrecorded)) hopen
  case h_2 => exact absurd ((State.settles_iff _ _).mp (Or.inr hrecorded)) hopen
  case h_3 hending => exact ⟨hending, hrecorded.1⟩
  case h_4 => exact hrecorded.elim

theorem pairwise_trail (n : Nat) (m : Moment σ) :
    (trail A S n m).Pairwise fun x y => x.requirement.key = y.requirement.key →
      x.ending = .ok .dropped ∧ x.requirement.optional := by
  induction n generalizing m with
  | zero => exact .nil
  | succ n ih =>
    refine List.pairwise_append.mpr ⟨?_, ?_, fun x hx y hy hkey => ?_⟩
    · cases hsearches : m.searches A S with
      | nil => exact .nil
      | cons x xs =>
        rw [← hsearches, subsingleton_searches m x (hsearches ▸ List.mem_cons_self)]
        exact List.pairwise_singleton _ _
    · cases hm : m.next? A S with
      | none => exact .nil
      | some m' => exact ih m'
    · cases hm : m.next? A S with
      | none =>
        rw [hm] at hy
        cases hy
      | some m' =>
        rw [hm] at hy
        exact dropped_of_next (next_of_next? hm) hx hy hkey

/-- In any run, of two searches for one key the earlier one dropped an optional requirement. So at
most one search for a key ends with a provider or a recorded failure; no search is made for what a
visited unit has, and how it ends is recorded at the next moment. -/
theorem memoised_searches (A : Access σ) (S : Setting) (requested : List Installable) (w : σ)
    (n : Nat) :
    ((trail A S n (.start requested w)).Pairwise fun x y =>
      x.requirement.key = y.requirement.key →
        x.ending = .ok .dropped ∧ x.requirement.optional) ∧
    (((trail A S n (.start requested w)).filter Search.settles).map
      (·.requirement.key)).Nodup ∧
    (∀ x ∈ trail A S n (.start requested w), ∀ u ∈ x.visited, u.satisfies x.requirement = false) ∧
    ∀ m m', Passes A S (.start requested w) m → Next A S m m' → ∀ x ∈ m.searches A S,
      x.Recorded m.progress.state m'.progress.state := by
  have hpairwise := pairwise_trail (A := A) (S := S) n (.start requested w)
  refine ⟨hpairwise, ?_, fun x hx u hu => ?_, fun m m' _ hnext x hx => recorded_of_next hnext hx⟩
  · refine List.pairwise_map.mpr (List.pairwise_filter.mpr (hpairwise.imp ?_))
    intro x y hxy hx _ hkey
    obtain ⟨hdropped, -⟩ := hxy hkey
    rw [Search.settles, hdropped] at hx
    cases hx
  · obtain ⟨k, -, hxk⟩ := mem_trail hx
    obtain ⟨-, -, -, -, hr, -, hvisited, -⟩ := open_of_mem_searches hxk
    exact State.satisfies_of_isResolved_eq_false hr (hvisited ▸ hu)

namespace Sample

def careless : Installable := .build unitNamespace "careless" one [asks "p", spare] [] [] none

end Sample

open Sample in
/-- The package that all of them need is searched once, the one that is dropped each time. -/
example : (trail Operation.access ⟨[first, second], .full⟩ 11
    (.start [plain, loose, careless] shared)).map (fun x => (x.unit.id, x.requirement.name)) =
      [("plain", "p"), ("loose", "q"), ("careless", "q")] := by
  rfl

end Provision.Resolution
