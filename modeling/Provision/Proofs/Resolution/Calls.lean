import Provision.Proofs.Resolution.Mirror
import Provision.Proofs.Resolution.Moves

namespace Provision.Resolution

variable {σ : Type}

abbrev Call := (q : Question) × Except Failure q.Reply

def record (q : Question) (x : EStateM Failure σ q.Reply) :
    EStateM Failure (σ × List Call) q.Reply := fun (w, calls) =>
  match x w with
  | .ok a w => .ok a (w, calls ++ [⟨q, .ok a⟩])
  | .error f w => .error f (w, calls ++ [⟨q, .error f⟩])

/-- Repositories that keep the calls. -/
def Access.recorded (A : Access σ) : Access (σ × List Call) where
  list s := record (.list s) (A.list s)
  materialize u := record (.materialize u) (A.materialize u)
  describe s := record (.describe s) (A.describe s)
  note m v := (A.note m v.1, v.2)

def calls (A : Access σ) (S : Setting) (requested : List Installable) (w : σ) : List Call :=
  (endWorld (resolve A.recorded S requested (w, []))).2

open Classical in
noncomputable def hear (q : Question) : EStateM Failure (List Call) q.Reply
  | [] => .error .exhausted []
  | ⟨q', answer⟩ :: rest =>
    if h : q' = q then
      match (h ▸ answer : Except Failure q.Reply) with
      | .ok a => .ok a rest
      | .error f => .error f rest
    else .error .exhausted (⟨q', answer⟩ :: rest)

/-- Repositories that know nothing but the answers still to be given. -/
noncomputable def replay : Access (List Call) where
  list s := hear (.list s)
  materialize u := hear (.materialize u)
  describe s := hear (.describe s)
  note _ rest := rest

variable {A : Access σ} {S : Setting} {requested : List Installable} {w w' : σ}

theorem ask_recorded (A : Access σ) (q : Question) : A.recorded.ask q = record q (A.ask q) := by
  cases q <;> rfl

theorem ask_replay (q : Question) : replay.ask q = hear q := by
  cases q <;> rfl

theorem hear_ok (q : Question) (a : q.Reply) (rest : List Call) :
    hear q (⟨q, .ok a⟩ :: rest) = .ok a rest := by
  simp [hear]

theorem hear_error (q : Question) (f : Failure) (rest : List Call) :
    hear q (⟨q, .error f⟩ :: rest) = .error f rest := by
  simp [hear]

theorem eq_of_hear_eq_ok {q : Question} {cs rest : List Call} {a : q.Reply}
    (h : hear q cs = .ok a rest) : cs = ⟨q, .ok a⟩ :: rest := by
  obtain _ | ⟨⟨q', answer⟩, cs⟩ := cs
  · cases h
  · by_cases hq : q' = q
    · subst hq
      cases answer with
      | ok b =>
        rw [hear_ok] at h
        cases h
        rfl
      | error f =>
        rw [hear_error] at h
        cases h
    · simp [hear, hq] at h

theorem eq_of_hear_eq_error {q : Question} {cs rest : List Call} {f : Failure}
    (h : hear q cs = .error f rest) :
    (f = .exhausted ∧ rest = cs) ∨ cs = ⟨q, .error f⟩ :: rest := by
  obtain _ | ⟨⟨q', answer⟩, cs⟩ := cs
  · cases h
    exact Or.inl ⟨rfl, rfl⟩
  · by_cases hq : q' = q
    · subst hq
      cases answer with
      | ok b =>
        rw [hear_ok] at h
        cases h
      | error g =>
        rw [hear_error] at h
        cases h
        exact Or.inr rfl
    · simp only [hear, hq, ↓reduceDIte] at h
      cases h
      exact Or.inl ⟨rfl, rfl⟩

theorem mirrors_record (q : Question) (x : EStateM Failure σ q.Reply) :
    Mirrors (fun _ => True) (fun w v => v.1 = w) x (record q x) := by
  refine ⟨fun _ _ => trivial, ?_⟩
  rintro w ⟨_, calls⟩ - rfl
  dsimp only [record]
  obtain ⟨a, w⟩ | ⟨f, w⟩ := x _ <;> exact ⟨_, rfl, rfl⟩

theorem mirrored_recorded (A : Access σ) :
    A.Mirrored (fun _ => True) (fun w v => v.1 = w) A.recorded where
  ask q := by
    rw [ask_recorded]
    exact mirrors_record q _
  back _ _ _ := trivial
  note m w v h := by rw [← h]; rfl

theorem mirrors_hear (cs : List Call) (q : Question) (x : EStateM Failure σ q.Reply) :
    Mirrors (fun v => v.2 <+: cs) (fun v rest => v.2 ++ rest = cs) (record q x) (hear q) := by
  refine ⟨?_, ?_⟩
  · rintro ⟨w, calls⟩ h
    dsimp only [record] at h
    cases hx : x w with
    | ok a v | error f v =>
      rw [hx] at h
      exact (List.prefix_append _ _).trans h
  · rintro ⟨w, calls⟩ rest h rfl
    -- The call that is kept comes first in what is still to be told, so its answer is heard.
    dsimp only [record] at h ⊢
    cases hx : x w with
    | ok a v =>
      rw [hx] at h
      obtain ⟨rest', h⟩ := h
      obtain rfl : ⟨q, .ok a⟩ :: rest' = rest := by simpa [endWorld] using h
      exact ⟨rest', by simp, hear_ok q a rest'⟩
    | error f v =>
      rw [hx] at h
      obtain ⟨rest', h⟩ := h
      obtain rfl : ⟨q, .error f⟩ :: rest' = rest := by simpa [endWorld] using h
      exact ⟨rest', by simp, hear_error q f rest'⟩

/-- As long as the calls are those that are told, the answers are the same. -/
theorem mirrored_replay (A : Access σ) (cs : List Call) :
    A.recorded.Mirrored (fun v => v.2 <+: cs) (fun v rest => v.2 ++ rest = cs) replay where
  ask q := by
    rw [ask_recorded, ask_replay]
    exact mirrors_hear cs q _
  back _ _ h := h
  note _ _ _ h := h

theorem passes_recorded {m : Moment σ} (h : Passes A S (.start requested w) m) :
    ∃ cs, Passes A.recorded S (.start requested (w, [])) ⟨m.toConfig, (m.world, cs)⟩ := by
  obtain ⟨-, hgo⟩ := passes_of_mirrored (mirrored_recorded A) h trivial
  obtain ⟨⟨v, cs⟩, hv, hp⟩ := hgo (w, []) rfl
  obtain rfl : v = m.world := hv
  exact ⟨cs, hp⟩

theorem replay_of_recorded {c : Config} {v : σ} {cs : List Call}
    (h : Passes A.recorded S (.start requested (w, [])) ⟨c, (v, cs)⟩) :
    Passes replay S (.start requested cs) ⟨c, []⟩ := by
  obtain ⟨-, hgo⟩ := passes_of_mirrored (mirrored_replay A cs) h (List.prefix_refl cs)
  obtain ⟨rest, hrest, hreplay⟩ := hgo cs rfl
  obtain rfl : rest = [] := List.append_right_eq_self.mp hrest
  exact hreplay

theorem recorded_of_resolve {R : Result} (h : resolve A S requested w = .ok R w') :
    ∃ p v, R = p.result S.mode ∧ resolveAll A S requested {} w = some (.ok p v) ∧
      Passes A S (.start requested w) (.finished p v) ∧
      Passes A.recorded S (.start requested (w, [])) (.finished p (v, calls A S requested w)) := by
  obtain ⟨p, v, rfl, -, hall, hp⟩ := passes_of_resolve h
  obtain ⟨cs, hrec⟩ := passes_recorded hp
  have hcs : calls A S requested w = cs := by
    rw [calls, resolve_of_passes hrec]
    rfl
  exact ⟨p, v, rfl, hall, hp, hcs ▸ hrec⟩

/-- A run that returns is told again from its calls. -/
theorem replay_of_resolve {R : Result} (h : resolve A S requested w = .ok R w') :
    ∃ p v, R = p.result S.mode ∧ resolveAll A S requested {} w = some (.ok p v) ∧
      Passes A S (.start requested w) (.finished p v) ∧
      Passes replay S (.start requested (calls A S requested w)) (.finished p []) := by
  obtain ⟨p, v, hR, hall, hp, hrec⟩ := recorded_of_resolve h
  exact ⟨p, v, hR, hall, hp, replay_of_recorded hrec⟩

theorem replay_of_failure {f : Failure} (h : resolve A S requested w = .error f w')
    (hf : f ≠ .exhausted) :
    ∃ m, Passes A S (.start requested w) m ∧ Stops A S m f w' ∧
      ∃ rest, Passes replay S (.start requested (calls A S requested w)) ⟨m.toConfig, rest⟩ ∧
        Stops replay S ⟨m.toConfig, rest⟩ f [] := by
  obtain ⟨m, hp, hs⟩ := stops_of_resolve h hf
  obtain ⟨before, hrec⟩ := passes_recorded hp
  obtain ⟨-, hstop⟩ := stops_of_mirrored (mirrored_recorded A) hs trivial
  obtain ⟨⟨v, cs⟩, -, hsrec⟩ := hstop (m.world, before) rfl
  have hcs : calls A S requested w = cs := by
    rw [calls, resolve_of_stops hrec hsrec]
    rfl
  obtain ⟨hbefore, hstop⟩ := stops_of_mirrored (mirrored_replay A cs) hsrec (List.prefix_refl cs)
  obtain ⟨-, hgo⟩ := passes_of_mirrored (mirrored_replay A cs) hrec hbefore
  obtain ⟨rest, hrest, hreplay⟩ := hgo cs rfl
  obtain ⟨rest', hrest', hsreplay⟩ := hstop rest hrest
  obtain rfl : rest' = [] := List.append_right_eq_self.mp hrest'
  exact ⟨m, hp, hs, rest, hcs ▸ hreplay, hsreplay⟩

def answerOf {σ α : Type} : EStateM.Result Failure σ α → Except Failure α
  | .ok a _ => .ok a
  | .error f _ => .error f

theorem exists_of_answerOf_eq_ok {α : Type} {x : EStateM.Result Failure σ α} {a : α}
    (h : answerOf x = .ok a) : ∃ w, x = .ok a w := by
  cases x with
  | ok b w =>
    cases h
    exact ⟨w, rfl⟩
  | error f w => cases h

theorem exists_of_answerOf_eq_error {α : Type} {x : EStateM.Result Failure σ α} {f : Failure}
    (h : answerOf x = .error f) : ∃ w, x = .error f w := by
  cases x with
  | ok a w => cases h
  | error g w =>
    cases h
    exact ⟨w, rfl⟩

theorem reaches_ask {w₀ w : σ} (h : Reaches A w₀ w) (q : Question) :
    Reaches A w₀ (endWorld (A.ask q w)) := by
  cases q with
  | list s => exact h.list s
  | materialize u => exact h.materialize u
  | describe s => exact h.describe s

/-- The calls kept up to a world were answered in worlds that reading can lead to. -/
def Heard (A : Access σ) (w : σ) (v : σ × List Call) : Prop :=
  Reaches A w v.1 ∧ ∀ c ∈ v.2, ∃ u, Reaches A w u ∧ answerOf (A.ask c.1 u) = c.2

theorem Heard.ask {v : σ × List Call} (h : Heard A w v) (q : Question) :
    Heard A w (endWorld (A.recorded.ask q v)) := by
  obtain ⟨v, cs⟩ := v
  obtain ⟨hv, hcs⟩ := h
  have hend := reaches_ask hv q
  rw [ask_recorded, record]
  cases ha : A.ask q v with
  | ok a v' | error f v' =>
    rw [ha] at hend
    refine ⟨hend, List.forall_mem_append.mpr ⟨hcs, ?_⟩⟩
    exact List.forall_mem_singleton.mpr ⟨v, hv, by rw [ha]; rfl⟩

theorem Heard.note {v : σ × List Call} (h : Heard A w v) (r : Log.Record) :
    Heard A w (A.recorded.note r v) :=
  ⟨h.1.note r, h.2⟩

theorem Heard.start : Heard A w (w, []) :=
  ⟨.start, List.forall_mem_nil _⟩

theorem heard_calls {c : Call} (hc : c ∈ calls A S requested w) :
    ∃ v, Reaches A w v ∧ answerOf (A.ask c.1 v) = c.2 :=
  (keeps_resolve (I := Heard A w) (fun q _ h => h.ask q) (fun r _ h => h.note r) Heard.start).2 c hc

/-- At every moment of a run the calls made so far were answered in worlds that reading can lead to. -/
theorem heard_of_passes {m : Moment (σ × List Call)}
    (h : Passes A.recorded S (.start requested (w, [])) m) : Heard A w m.world :=
  keeps_passes (I := Heard A w) (fun q _ h => h.ask q) (fun r _ h => h.note r) h Heard.start

theorem suffix_of_reaches {cs rest : List Call} (h : Reaches replay cs rest) : rest <:+ cs := by
  have hend (q : Question) (rest : List Call) : endWorld (hear q rest) <:+ rest := by
    cases hr : hear q rest with
    | ok a rest' => exact ⟨[_], (eq_of_hear_eq_ok hr).symm⟩
    | error f rest' =>
      obtain ⟨-, rfl⟩ | he := eq_of_hear_eq_error hr
      · exact List.suffix_refl _
      · exact ⟨[_], he.symm⟩
  induction h with
  | start => exact List.suffix_refl _
  | list s _ ih => exact (hend _ _).trans ih
  | materialize u _ ih => exact (hend _ _).trans ih
  | describe s _ ih => exact (hend _ _).trans ih
  | note m _ ih => exact ih

theorem mem_of_hear_ok {cs rest rest' : List Call} (h : Reaches replay cs rest) {q : Question}
    {a : q.Reply} (ha : hear q rest = .ok a rest') : (⟨q, .ok a⟩ : Call) ∈ cs := by
  refine (suffix_of_reaches h).subset ?_
  rw [eq_of_hear_eq_ok ha]
  exact List.mem_cons_self

theorem mem_of_hear_error {cs rest rest' : List Call} (h : Reaches replay cs rest) {q : Question}
    {f : Failure} (hf : hear q rest = .error f rest') (hne : f ≠ .exhausted) :
    (⟨q, .error f⟩ : Call) ∈ cs := by
  refine (suffix_of_reaches h).subset ?_
  obtain ⟨he, -⟩ | he := eq_of_hear_eq_error hf
  · exact absurd he hne
  · rw [he]
    exact List.mem_cons_self

end Provision.Resolution
