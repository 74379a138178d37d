import Provision.Proofs.Resolution.Calls
import Provision.Proofs.Resolution.Settled

namespace Provision.Resolution

variable {σ α β : Type}

def Access.supplying (A : Access σ) (supply : Installable → EStateM Failure σ Contents) : Access σ :=
  { A with materialize := supply }

def Question.drawn? : Question → Option Installable
  | .materialize u => some u
  | .list _ | .describe _ => none

def drawn (cs : List Call) : List Installable := cs.filterMap fun c => c.1.drawn?

/-- Where a computation returns it has asked for the contents of some more units. -/
def Draws (x : EStateM Failure (σ × List Call) α) (Q : α → List Installable → Prop) : Prop :=
  ∀ ⦃v a v'⦄, x v = .ok a v' → ∃ us, drawn v'.2 = drawn v.2 ++ us ∧ Q a us

abbrev DrawsNone (x : EStateM Failure (σ × List Call) α) : Prop := Draws x fun _ us => us = []

variable {A : Access σ} {S : Setting} {requested : List Installable} {w w' : σ}

theorem searchAll_supplying (supply : Installable → EStateM Failure σ Contents)
    (owner : Option Source) (r : Requirement) (ss : List Source) :
    searchAll (A.supplying supply) owner r ss = searchAll A owner r ss := by
  induction ss with
  | nil => rfl
  | cons s ss ih =>
    unfold searchAll
    rw [ih]
    rfl

theorem search_supplying (supply : Installable → EStateM Failure σ Contents) (S : Setting)
    (r : Requirement) (u : Installable) (path : String) :
    search (A.supplying supply) S r u path = search A S r u path := by
  have hconfigured (owner : Option Source) :
      searchConfigured (A.supplying supply) S r owner path = searchConfigured A S r owner path := by
    unfold searchConfigured
    rw [searchAll_supplying]
    rfl
  unfold search
  simp only [hconfigured]
  rfl

theorem draws_pure {a : α} {Q : α → List Installable → Prop} (h : Q a []) :
    Draws (pure a : EStateM Failure (σ × List Call) α) Q := by
  intro v b v' hb
  cases hb
  exact ⟨[], (List.append_nil _).symm, h⟩

theorem draws_bind {x : EStateM Failure (σ × List Call) α}
    {g : α → EStateM Failure (σ × List Call) β} {Q : α → List Installable → Prop}
    {P : β → List Installable → Prop} (hx : Draws x Q)
    (hg : ∀ a us, Q a us → Draws (g a) fun b vs => P b (us ++ vs)) : Draws (x >>= g) P := by
  intro v b v' hb
  obtain ⟨a, v₁, h, hb⟩ := exists_of_bind_ok hb
  obtain ⟨us, hus, ha⟩ := hx h
  obtain ⟨vs, hvs, hP⟩ := hg a us ha hb
  exact ⟨us ++ vs, by rw [hvs, hus, List.append_assoc], hP⟩

theorem Draws.mono {x : EStateM Failure (σ × List Call) α} {Q P : α → List Installable → Prop}
    (h : Draws x Q) (hQP : ∀ a us, Q a us → P a us) : Draws x P := by
  intro v a v' hx
  obtain ⟨us, hus, ha⟩ := h hx
  exact ⟨us, hus, hQP a us ha⟩

theorem draws_bind_of_none {x : EStateM Failure (σ × List Call) α}
    {g : α → EStateM Failure (σ × List Call) β} {P : β → List Installable → Prop}
    (hx : DrawsNone x) (hg : ∀ a, Draws (g a) P) : Draws (x >>= g) P := by
  refine draws_bind hx ?_
  rintro a _ rfl
  exact hg a

theorem draws_forM {g : α → EStateM Failure (σ × List Call) PUnit} (as : List α)
    (hg : ∀ a, DrawsNone (g a)) : DrawsNone (as.forM g) := by
  induction as with
  | nil => exact draws_pure rfl
  | cons a as ih => exact draws_bind_of_none (hg a) fun _ => ih

theorem draws_foldlM {I : β → Prop} {g : β → α → EStateM Failure (σ × List Call) β}
    (hg : ∀ b a, I b → Draws (g b a) fun b' us => I b' ∧ us = []) (as : List α) {b : β} (hb : I b) :
    Draws (as.foldlM g b) fun b' us => I b' ∧ us = [] := by
  induction as generalizing b with
  | nil => exact draws_pure ⟨hb, rfl⟩
  | cons a as ih =>
    rw [List.foldlM_cons]
    refine draws_bind (hg b a hb) ?_
    rintro b' _ ⟨hb', rfl⟩
    exact ih hb'

theorem draws_log (level : Log.Level) (message : String) :
    DrawsNone (A.recorded.log level message) := by
  intro v a v' h
  cases h
  exact ⟨[], (List.append_nil _).symm, rfl⟩

theorem draws_debug (message : String) : DrawsNone (A.recorded.debug message) :=
  draws_log _ _

theorem drawn_record (q : Question) (x : EStateM Failure σ q.Reply) (v : σ × List Call) :
    drawn (endWorld (record q x v)).2 = drawn v.2 ++ q.drawn?.toList := by
  obtain ⟨w, cs⟩ := v
  unfold record
  dsimp only
  cases x w <;> cases h : q.drawn? <;> simp [endWorld, drawn, h]

/-- Where contents are had without asking, no other question changes whose were asked for. -/
theorem mirrored_drawn (A : Access σ) (us : List Installable) :
    (A.recorded.supplying fun _ => pure {}).Mirrored (fun _ => True)
      (fun v v' => v = v' ∧ drawn v.2 = us) (A.recorded.supplying fun _ => pure {}) := by
  refine mirrored_self (fun q v hv => ?_) fun _ _ hv => hv
  rw [← hv]
  cases q with
  | materialize u => rfl
  | list s => exact (drawn_record (.list s) (A.list s) v).trans (List.append_nil _)
  | describe s => exact (drawn_record (.describe s) (A.describe s) v).trans (List.append_nil _)

theorem draws_of_mirrors {x : EStateM Failure (σ × List Call) α}
    (h : ∀ us, Mirrors (fun _ => True) (fun v v' => v = v' ∧ drawn v.2 = us) x x) : DrawsNone x := by
  intro v a v' hx
  obtain ⟨-, hgo⟩ := (h (drawn v.2)).ok hx trivial
  obtain ⟨_, ⟨-, hv'⟩, -⟩ := hgo v ⟨rfl, rfl⟩
  exact ⟨[], by rw [hv', List.append_nil], rfl⟩

theorem draws_search (S : Setting) (r : Requirement) (u : Installable) (path : String) :
    DrawsNone (search A.recorded S r u path) := by
  rw [← search_supplying fun _ => pure {}]
  exact draws_of_mirrors fun us => mirrors_search (mirrored_drawn A us) S r u path

theorem draws_label (u : Installable) : DrawsNone (A.recorded.label u) := by
  change DrawsNone ((A.recorded.supplying fun _ => pure {}).label u)
  exact draws_of_mirrors fun us => mirrors_label (mirrored_drawn A us) u

theorem draws_contents (S : Setting) (u : Installable) :
    Draws (contents A.recorded S u) fun _ us => us = [u] := by
  intro v c v' h
  refine ⟨[u], ?_, rfl⟩
  have hdrawn : drawn (endWorld (A.recorded.materialize u v)).2 = drawn v.2 ++ [u] :=
    drawn_record (.materialize u) (A.materialize u) v
  unfold contents at h
  cases hm : A.recorded.materialize u v with
  | ok d v₁ =>
    rw [hm] at h hdrawn
    cases h
    exact hdrawn
  | error f v₁ =>
    rw [hm] at h hdrawn
    dsimp only at h
    split at h
    case isTrue =>
      cases h
      exact hdrawn
    case isFalse => cases h

theorem draws_visit (S : Setting) (u : Installable) (p : Progress) :
    Draws (visit A.recorded S u p) fun q us => q.state = p.state.addUnit u ∧ us = [u] := by
  have hbundle (b : Bundle) (q : Progress) (hq : q.state = p.state.addUnit u) :
      Draws (addBundle A.recorded q b) fun q' us => q'.state = p.state.addUnit u ∧ us = [] := by
    unfold addBundle
    split
    case isTrue => exact draws_pure ⟨hq, rfl⟩
    case isFalse => exact draws_bind_of_none (draws_debug _) fun _ => draws_pure ⟨hq, rfl⟩
  have hfeature (f : Feature) (q : Progress) (hq : q.state = p.state.addUnit u) :
      Draws (addFeature A.recorded q f) fun q' us => q'.state = p.state.addUnit u ∧ us = [] := by
    unfold addFeature
    split
    case isTrue => exact draws_pure ⟨hq, rfl⟩
    case isFalse => exact draws_bind_of_none (draws_debug _) fun _ => draws_pure ⟨hq, rfl⟩
  refine draws_bind_of_none (draws_forM _ fun _ => draws_debug _) fun _ => ?_
  refine draws_bind_of_none (draws_log _ _) fun _ => ?_
  refine draws_bind (draws_contents S u) ?_
  rintro c _ rfl
  refine draws_bind (draws_foldlM (fun q b => hbundle b q) c.bundles rfl) ?_
  rintro q _ ⟨hq, rfl⟩
  refine (draws_foldlM (fun q f => hfeature f q) c.features hq).mono ?_
  rintro q' _ ⟨hq', rfl⟩
  exact ⟨hq', rfl⟩

theorem draws_enter (S : Setting) (u : Installable) (path : String) (p : Progress)
    (stack : List Frame) :
    Draws (enter A.recorded S u path p stack) fun q us =>
      q.1.state.units = p.state.units ++ us := by
  unfold enter
  split
  case isTrue =>
    exact draws_bind_of_none (draws_debug _) fun _ => draws_pure (List.append_nil _).symm
  case isFalse hu =>
    have hnew : p.state.containsUnit u = false :=
      (Bool.or_eq_false_iff.mp (Bool.eq_false_iff.mpr hu)).2
    refine draws_bind (draws_visit S u p) ?_
    rintro q _ ⟨hq, rfl⟩
    refine draws_pure ?_
    rw [List.append_nil, hq, State.units_addUnit hnew]

theorem draws_start (S : Setting) (u : Installable) (p : Progress) :
    Draws (start A.recorded S u p) fun q us => q.1.state.units = p.state.units ++ us :=
  draws_bind_of_none (draws_label u) fun _ => draws_enter S u _ p []

theorem draws_step (S : Setting) (p : Progress) (frame : Frame) (stack : List Frame) :
    Draws (step A.recorded S p frame stack) fun q us =>
      q.1.state.units = p.state.units ++ us := by
  obtain ⟨u, path, rs⟩ := frame
  cases rs with
  | nil => exact draws_pure (List.append_nil _).symm
  | cons r rs =>
    change Draws (settle A.recorded S r ⟨u, path, r :: rs⟩ p (⟨u, path, rs⟩ :: stack)) _
    unfold settle
    split
    case isTrue =>
      exact draws_bind_of_none (draws_debug _) fun _ => draws_pure (List.append_nil _).symm
    case isFalse =>
      split
      case isTrue =>
        exact draws_bind_of_none (draws_debug _) fun _ => draws_pure (List.append_nil _).symm
      case isFalse =>
        refine draws_bind_of_none (draws_debug _) fun _ =>
          draws_bind_of_none (draws_search S r u path) ?_
        rintro (q | _ | _)
        · exact draws_bind_of_none (draws_label q) fun _ => draws_enter S q _ _ _
        · exact draws_pure (List.append_nil _).symm
        · exact draws_pure ((State.units_addFailed _ _).trans (List.append_nil _).symm)

/-- At every moment of a run the contents of the visited units were asked for, in the order of the
visits, and no others. -/
theorem drawn_of_passes {m : Moment (σ × List Call)}
    (h : Passes A.recorded S (.start requested (w, [])) m) :
    drawn m.world.2 = m.progress.state.units := by
  induction h with
  | refl => rfl
  | tail _ hn ih =>
    cases hn with
    | root hs =>
      obtain ⟨us, hus, hunits⟩ := draws_start _ _ _ hs
      rw [hus, hunits, ih]
    | step hs =>
      obtain ⟨us, hus, hunits⟩ := draws_step _ _ _ _ hs
      rw [hus, hunits, ih]

/-- A run asks for the contents of each unit of its result once, in order. -/
theorem drawn_calls {R : Result} (h : resolve A S requested w = .ok R w') :
    drawn (calls A S requested w) = R.units.items := by
  obtain ⟨p, v, rfl, -, hp, hrec⟩ := recorded_of_resolve h
  have hvisited : p.units.items = p.state.units := visited_of_passes hp
  exact (drawn_of_passes hrec).trans hvisited.symm

end Provision.Resolution
