import Provision.Proofs.Resolution.Moves
import Provision.Proofs.Resolution.Status

namespace Provision.Resolution

variable {σ : Type}

def Provided (units : List Installable) (r : Requirement) : Prop :=
  ∃ v ∈ units, v.satisfies r

instance (units : List Installable) (r : Requirement) : Decidable (Provided units r) :=
  inferInstanceAs (Decidable (∃ v ∈ units, v.satisfies r))

/-- A provider was found for a requirement, and there is a unit of its id and version. -/
def Shadowed (A : Access σ) (w₀ : σ) (S : Setting) (units : List Installable) (r : Requirement) :
    Prop :=
  ∃ u ∈ units, (∃ p ∈ u.requires, p.key = r.key) ∧ ∃ s ∈ S.sources u, ∃ q,
    Offered A w₀ s r q ∧ ∃ v ∈ units, v.id = q.id ∧ v.version = q.version

/-- A requirement has a provider, or something stands for one. -/
def Answered (A : Access σ) (w₀ : σ) (S : Setting) (units : List Installable) (r : Requirement) :
    Prop :=
  Provided units r ∨ Shadowed A w₀ S units r

def Refused (A : Access σ) (w₀ : σ) (S : Setting) (units : List Installable) (r : Requirement) :
    Prop :=
  ∃ u ∈ units, r ∈ u.requires ∧ ∀ s ∈ S.sources u, Lacking A w₀ s r

/-- Nothing more is to be done for a requirement of a unit. -/
def Settled (S : Setting) (s : State) (u : Installable) (r : Requirement) : Prop :=
  s.isResolved r ∨ s.isFailed r ∨ (r.optional ∧ (S.mode = .slice → u.owner = none))

/-- What is known of the settled requirements at any moment of a run. -/
structure Progress.Sound (A : Access σ) (w₀ : σ) (S : Setting) (p : Progress) : Prop where
  visited : p.units.items = p.state.units
  answered : ∀ r, p.state.isResolved r → Answered A w₀ S p.state.units r
  refused : ∀ q ∈ p.state.failed, S.mode = .slice ∧ Refused A w₀ S p.state.units q

/-- Every requirement of a visited unit is settled, or a frame of the unit still has it. -/
structure Attended (S : Setting) (s : State) (stack : List Frame) : Prop where
  entered : ∀ f ∈ stack, f.unit ∈ s.units ∧ f.pending <:+ f.unit.requires
  settled : ∀ u ∈ s.units, ∀ r ∈ u.requires,
    Settled S s u r ∨ ∃ f ∈ stack, f.unit = u ∧ r ∈ f.pending

variable {A : Access σ} {w₀ : σ} {S : Setting}

theorem Offered.satisfies {s : Source} {r : Requirement} {q : Installable}
    (h : Offered A w₀ s r q) : q.satisfies r := by
  obtain ⟨units, -, hq⟩ := h
  exact List.find?_some (p := fun u : Installable => u.satisfies r) hq

theorem Offered.congr {s : Source} {r r' : Requirement} {q : Installable}
    (h : Offered A w₀ s r q) (hk : r.key = r'.key) : Offered A w₀ s r' q := by
  obtain ⟨units, hl, hq⟩ := h
  refine ⟨units, hl, ?_⟩
  simpa only [Installable.satisfies_congr _ hk] using hq

theorem Provided.mono {us vs : List Installable} {r : Requirement} (h : Provided us r)
    (hs : us ⊆ vs) : Provided vs r := by
  obtain ⟨v, hv, hr⟩ := h
  exact ⟨v, hs hv, hr⟩

theorem Answered.mono {us vs : List Installable} {r : Requirement} (h : Answered A w₀ S us r)
    (hs : us ⊆ vs) : Answered A w₀ S vs r := by
  obtain h | ⟨u, hu, hp, s, hsu, q, hq, v, hv, hk⟩ := h
  · exact Or.inl (h.mono hs)
  · exact Or.inr ⟨u, hs hu, hp, s, hsu, q, hq, v, hs hv, hk⟩

theorem Answered.congr {us : List Installable} {r r' : Requirement} (h : Answered A w₀ S us r)
    (hk : r.key = r'.key) : Answered A w₀ S us r' := by
  obtain ⟨v, hv, hr⟩ | ⟨u, hu, ⟨p, hp, hpk⟩, s, hs, q, hq, hv⟩ := h
  · exact Or.inl ⟨v, hv, by rwa [← Installable.satisfies_congr v hk]⟩
  · exact Or.inr ⟨u, hu, ⟨p, hp, hpk.trans hk⟩, s, hs, q, hq.congr hk, hv⟩

theorem Refused.mono {us vs : List Installable} {r : Requirement} (h : Refused A w₀ S us r)
    (hs : us ⊆ vs) : Refused A w₀ S vs r := by
  obtain ⟨u, hu, h⟩ := h
  exact ⟨u, hs hu, h⟩

theorem Settled.perform {s : State} {u : Installable} {r : Requirement} (h : Settled S s u r)
    (a : State.Act) : Settled S (s.perform a).1 u r := by
  obtain h | h := or_assoc.mpr h
  · have hle := State.status_le_perform s a r
    have h := (State.settles_iff _ r).mpr (((State.settles_iff s r).mp h).trans hle)
    exact or_assoc.mp (Or.inl h)
  · exact Or.inr (Or.inr h)

theorem Collection.has_iff (c : Collection Installable) (u : Installable) :
    c.has u ↔ ∃ v ∈ c.items, v.id = u.id ∧ v.version = u.version := by
  simp [Collection.has, Collection.contains, Collection.isAt, Versioned.id, Versioned.version]

theorem Progress.exists_of_holds {p : Progress} (hp : p.units.items = p.state.units)
    {u : Installable} (h : p.holds u) :
    ∃ v ∈ p.state.units, v.id = u.id ∧ v.version = u.version := by
  unfold Progress.holds at h
  rw [Bool.or_eq_true, Collection.has_iff, State.containsUnit_iff] at h
  obtain ⟨v, hv, hk⟩ | ⟨v, hv, hk⟩ := h
  · exact ⟨v, hp ▸ hv, hk⟩
  · obtain ⟨hi, hver, -⟩ := Installable.Key.mk.inj hk
    exact ⟨v, hv, hi.symm, hver.symm⟩

namespace Progress.Sound

theorem empty : Progress.Sound A w₀ S {} where
  visited := rfl
  answered r h := by simp [State.isResolved] at h
  refused q h := by cases h

theorem addFailed {p : Progress} (h : p.Sound A w₀ S) {r : Requirement} (hS : S.mode = .slice)
    (hr : Refused A w₀ S p.state.units r) :
    Progress.Sound A w₀ S { p with state := p.state.addFailed r } := by
  have hu := State.units_addFailed p.state r
  refine ⟨hu ▸ h.visited, ?_, ?_⟩
  · intro q hq
    rw [State.isResolved_addFailed] at hq
    exact hu ▸ h.answered q hq
  · intro q hq
    simp only [hu]
    obtain hq | rfl := State.mem_failed_addFailed hq
    · exact h.refused q hq
    · exact ⟨hS, hr⟩

theorem addResolved {p : Progress} (h : p.Sound A w₀ S) {r : Requirement}
    (hr : Answered A w₀ S p.state.units r) :
    Progress.Sound A w₀ S { p with state := p.state.addResolved r } := by
  refine ⟨h.visited, ?_, ?_⟩
  · intro q hq
    rw [State.isResolved_addResolved, Bool.or_eq_true, decide_eq_true_iff] at hq
    obtain hq | hk := hq
    · exact h.answered q hq
    · exact hr.congr hk.symm
  · intro q hq
    exact h.refused q (List.mem_filter.mp hq).1

/-- A visit keeps the progress sound where the visited unit provides what has no other answer. -/
theorem visit {p : Progress} {u : Installable} (c : Contents)
    (hp : p.units.items = p.state.units)
    (hans : ∀ r, p.state.isResolved r → Answered A w₀ S p.state.units r ∨ u.satisfies r)
    (href : ∀ q ∈ p.state.failed, S.mode = .slice ∧ Refused A w₀ S p.state.units q)
    (hu : p.holds u = false) : (p.visited u c).Sound A w₀ S := by
  obtain ⟨hi, hs⟩ := Bool.or_eq_false_iff.mp hu
  have hunits := Progress.units_visited hu c
  have hsub : p.state.units ⊆ p.state.units ++ [u] := List.subset_append_left _ _
  have hself {r : Requirement} (hr : u.satisfies r) : Provided (p.state.units ++ [u]) r :=
    ⟨u, by simp, hr⟩
  refine ⟨?_, ?_, ?_⟩
  · rw [hunits]
    simp [Progress.visited, Collection.add, hi, hp]
  · intro r hr
    rw [hunits]
    change (p.state.addUnit u).isResolved r at hr
    rw [State.isResolved_addUnit hs, Bool.or_eq_true] at hr
    obtain hr | hr := hr
    · obtain ha | ha := hans r hr
      · exact ha.mono hsub
      · exact Or.inl (hself ha)
    · exact Or.inl (hself hr)
  · intro q hq
    rw [hunits]
    change q ∈ (p.state.addUnit u).failed at hq
    rw [State.failed_addUnit hs] at hq
    obtain ⟨hS, hq⟩ := href q (List.mem_filter.mp hq).1
    exact ⟨hS, hq.mono hsub⟩

end Progress.Sound

namespace Attended

theorem empty : Attended S {} [] where
  entered f h := by cases h
  settled u h := by cases h

theorem top {s : State} {u : Installable} {path : String} {r : Requirement}
    {rs : List Requirement} {stack : List Frame}
    (h : Attended S s (⟨u, path, r :: rs⟩ :: stack)) : u ∈ s.units ∧ r ∈ u.requires := by
  obtain ⟨hu, hsuf⟩ := h.entered ⟨u, path, r :: rs⟩ List.mem_cons_self
  exact ⟨hu, hsuf.subset List.mem_cons_self⟩

theorem leave {s : State} {u : Installable} {path : String} {stack : List Frame}
    (h : Attended S s (⟨u, path, []⟩ :: stack)) : Attended S s stack := by
  refine ⟨fun f hf => h.entered f (List.mem_cons_of_mem _ hf), ?_⟩
  intro v hv r hr
  obtain hr | ⟨f, hf, hfu, hfr⟩ := h.settled v hv r hr
  · exact Or.inl hr
  · obtain rfl | hf := List.mem_cons.mp hf
    · cases hfr
    · exact Or.inr ⟨f, hf, hfu, hfr⟩

theorem advance {s t : State} {u : Installable} {path : String} {r : Requirement}
    {rs : List Requirement} {stack : List Frame} (h : Attended S s (⟨u, path, r :: rs⟩ :: stack))
    (hunits : t.units = s.units) (hmono : ∀ v q, Settled S s v q → Settled S t v q)
    (hr : Settled S t u r) : Attended S t (⟨u, path, rs⟩ :: stack) := by
  refine ⟨?_, ?_⟩
  · rw [hunits]
    obtain ⟨⟨hu, hsuf⟩, hstack⟩ := List.forall_mem_cons.mp h.entered
    exact List.forall_mem_cons.mpr ⟨⟨hu, (List.suffix_cons r rs).trans hsuf⟩, hstack⟩
  · rw [hunits]
    intro v hv q hq
    obtain hq | ⟨f, hf, hfu, hfq⟩ := h.settled v hv q hq
    · exact Or.inl (hmono v q hq)
    · obtain rfl | hf := List.mem_cons.mp hf
      · obtain rfl | hfq := List.mem_cons.mp hfq
        · exact Or.inl (hfu ▸ hr)
        · exact Or.inr ⟨⟨u, path, rs⟩, List.mem_cons_self, hfu, hfq⟩
      · exact Or.inr ⟨f, List.mem_cons_of_mem _ hf, hfu, hfq⟩

theorem enter {s : State} {u : Installable} {stack : List Frame} (h : Attended S s stack)
    (path : String) (hu : s.containsUnit u = false) :
    Attended S (s.addUnit u) (⟨u, path, u.requires⟩ :: stack) := by
  refine ⟨?_, ?_⟩
  · rw [State.units_addUnit hu]
    refine List.forall_mem_cons.mpr ⟨⟨by simp, List.suffix_refl _⟩, ?_⟩
    intro f hf
    obtain ⟨hfu, hsuf⟩ := h.entered f hf
    exact ⟨List.mem_append_left _ hfu, hsuf⟩
  · intro v hv r hr
    rw [State.units_addUnit hu, List.mem_append, List.mem_singleton] at hv
    obtain hv | rfl := hv
    · obtain hr | ⟨f, hf, hfv⟩ := h.settled v hv r hr
      · exact Or.inl (hr.perform (.addUnit u))
      · exact Or.inr ⟨f, List.mem_cons_of_mem _ hf, hfv⟩
    · exact Or.inr ⟨⟨v, path, v.requires⟩, List.mem_cons_self, rfl, hr⟩

end Attended

structure Config.Sound (A : Access σ) (w₀ : σ) (S : Setting) (c : Config) : Prop where
  progress : c.progress.Sound A w₀ S
  attended : Attended S c.progress.state c.stack

theorem sound_of_move {c d : Config} (h : c.Sound A w₀ S) (hm : Move A w₀ S c d) :
    d.Sound A w₀ S := by
  obtain ⟨hp, ha⟩ := h
  cases hm with
  | skipRoot hu => exact ⟨hp, ha⟩
  | visitRoot hu hc hl =>
    refine ⟨.visit _ hp.visited (fun r hr => Or.inl (hp.answered r hr)) hp.refused hu, ?_⟩
    exact ha.enter _ (Bool.or_eq_false_iff.mp hu).2
  | leave => exact ⟨hp, ha.leave⟩
  | skip h => exact ⟨hp, ha.advance rfl (fun _ _ => id) (or_assoc.mp (Or.inl h))⟩
  | drop hr hf h =>
    exact ⟨hp, ha.advance rfl (fun _ _ => id) (Or.inr (Or.inr ⟨h.1, h.2.1⟩))⟩
  | @fail us p u path r rs stack hr hf h =>
    obtain ⟨hu, hru⟩ := ha.top
    refine ⟨hp.addFailed h.1 ⟨u, hu, hru, Setting.searched_eq_sources h.1 u r ▸ h.2.2⟩, ?_⟩
    refine ha.advance (State.units_addFailed _ _) (fun _ _ hq => hq.perform (.addFailed r)) ?_
    refine Or.inr (Or.inl ((State.isFailed_iff _ r).mpr ⟨r, ?_, rfl⟩))
    simp [State.failed_addFailed hr hf]
  | @meet us p u path r rs stack q hr hf h hq =>
    obtain ⟨hu, hru⟩ := ha.top
    obtain ⟨s, hs, hoff⟩ := Chosen.exists_offered h
    have hans : Answered A w₀ S p.state.units r :=
      Or.inr ⟨u, hu, ⟨r, hru, rfl⟩, s, S.searched_subset_sources u r hs, q, hoff,
        p.exists_of_holds hp.visited hq⟩
    refine ⟨hp.addResolved hans, ?_⟩
    refine ha.advance rfl (fun _ _ hq => hq.perform (.addResolved r)) (Or.inl ?_)
    simp [State.isResolved_addResolved]
  | @visit us p u path r rs stack q c label hr hf h hq hc hl =>
    obtain ⟨s, -, hoff⟩ := Chosen.exists_offered h
    -- Between the mark and the visit the requirement has no answer but the unit to be visited.
    refine ⟨.visit c hp.visited ?_ ?_ hq, ?_⟩
    · intro r' hr'
      rw [State.isResolved_addResolved, Bool.or_eq_true, decide_eq_true_iff] at hr'
      obtain hr' | hk := hr'
      · exact Or.inl (hp.answered r' hr')
      · exact Or.inr (hoff.congr hk.symm).satisfies
    · intro r' hr'
      exact hp.refused r' (List.mem_filter.mp hr').1
    · refine Attended.enter ?_ _ (Bool.or_eq_false_iff.mp hq).2
      refine ha.advance rfl (fun _ _ hq => hq.perform (.addResolved r)) (Or.inl ?_)
      simp [State.isResolved_addResolved]

theorem sound_of_moves {requested : List Installable} {d : Config}
    (hm : Moves A w₀ S ⟨requested, {}, []⟩ d) : d.Sound A w₀ S := by
  induction hm with
  | refl => exact ⟨.empty, .empty⟩
  | tail _ hm ih => exact sound_of_move ih hm

theorem sound_of_passes {requested : List Installable} {m : Moment σ}
    (h : Passes A S (.start requested w₀) m) : m.Sound A w₀ S :=
  sound_of_moves (moves_of_passes .start h).2

theorem visited_of_passes {requested : List Installable} {m : Moment σ}
    (h : Passes A S (.start requested w₀) m) :
    m.progress.units.items = m.progress.state.units :=
  (sound_of_passes h).progress.visited

/-- With an empty stack all requirements of visited units are settled. -/
theorem settled_of_moves {requested : List Installable} {d : Config}
    (hm : Moves A w₀ S ⟨requested, {}, []⟩ d) (hd : d.stack = []) {u : Installable}
    (hu : u ∈ d.progress.state.units) {r : Requirement} (hr : r ∈ u.requires) :
    Settled S d.progress.state u r := by
  obtain hr | ⟨f, hf, -⟩ := (sound_of_moves hm).attended.settled u hu r hr
  · exact hr
  · rw [hd] at hf
    cases hf

end Provision.Resolution
