import Provision.Proofs.Resolution.Accounting
import Provision.Proofs.Resolution.Probing

namespace Provision.Resolution

variable {σ : Type} {A : Access σ} {w₀ w : σ} {S : Setting} {requested : List Installable}

/-- What comes next at a moment asks for the units of some repositories only, and enters no unit but
the one that the first of them has which has any for a requirement. -/
structure Moment.Within (A : Access σ) (S : Setting) (w₀ : σ) (r : Requirement) (ss : List Source)
    (m : Moment σ) : Prop where
  probed : probed (m.asks A S) ⊆ ss
  entered : ∀ n, Next A S m n → ∀ q ∈ n.progress.state.units,
    q ∈ m.progress.state.units ∨ Chosen A w₀ r q ss

theorem mem_units_of_move {us : List Installable} {p : Progress} {f : Frame} {stack : List Frame}
    {r : Requirement} {rs : List Requirement} (hr : f.pending = r :: rs) {d : Config}
    (h : Move A w₀ S ⟨us, p, f :: stack⟩ d) {q : Installable} (hq : q ∈ d.progress.state.units) :
    q ∈ p.state.units ∨ Found A w₀ S f.unit r (.provider q) := by
  cases h with
  | leave => cases hr
  | skip | drop | meet => exact Or.inl hq
  | fail => exact Or.inl (State.units_addFailed p.state _ ▸ hq)
  | @visit us p u path r rs stack q' c label _ _ hfound hheld =>
    cases hr
    rw [Progress.units_visited (p := { p with state := p.state.addResolved r }) hheld] at hq
    obtain hq | hq := List.mem_append.mp hq
    · exact Or.inl hq
    · exact Or.inr (List.mem_singleton.mp hq ▸ hfound)

theorem within_searched {m : Moment σ} (hm : Reaches A w₀ m.world) {f : Frame} {stack : List Frame}
    (hf : m.stack = f :: stack) {r : Requirement} {rs : List Requirement}
    (hr : f.pending = r :: rs) : m.Within A S w₀ r (S.searched f.unit r) := by
  obtain ⟨⟨us, p, _⟩, v⟩ := m
  obtain rfl := hf
  refine ⟨fun s hs => ?_, fun n hn q hq => mem_units_of_move hr (move_of_next hm hn).2 hq⟩
  obtain ⟨g, _, r', rs', hg, hr', hsearched⟩ := probed_asks hs
  cases hg
  cases hr.symm.trans hr'
  exact hsearched

/-- While an optional requirement that is not greedy is settled, in either mode, the repository of the
visited unit that declares it is the only one that is probed and that an entered unit can be from. For
a unit without a repository these are the configured ones. -/
theorem within_of_restrained {m : Moment σ} (hm : Passes A S (.start requested w) m) {f : Frame}
    {stack : List Frame} (hf : m.stack = f :: stack) {r : Requirement} {rs : List Requirement}
    (hr : f.pending = r :: rs) (hoptional : r.optional) (hgreedy : r.greedy = false) :
    f.unit ∈ m.progress.state.units ∧ r ∈ f.unit.requires ∧
      (∀ s, f.unit.owner = some s → m.Within A S w r [s]) ∧
      (f.unit.owner = none → m.Within A S w r S.repositories) := by
  have hreach : Reaches A w m.world := (moves_of_passes .start hm).1
  have hwithin := within_searched (S := S) hreach hf hr
  obtain ⟨hunit, hpending⟩ := (sound_of_passes hm).attended.entered f (hf ▸ List.mem_cons_self)
  refine ⟨hunit, hpending.subset (hr ▸ List.mem_cons_self), fun s hs => ?_, fun hnone => ?_⟩
  · have hrestrained : (r.optional && !r.greedy) = true := by simp [hoptional, hgreedy]
    rwa [Setting.searched_of_restrained hs hrestrained] at hwithin
  · rwa [Setting.searched, hnone] at hwithin

namespace Sample

def timid : Requirement := { asks "p" with optional := true, greedy := false }

def shy : Installable := unit first "shy" [timid] []

def stray : Installable := .build unitNamespace "stray" one [timid] [] [] none

def beside : Workspace where
  repositories := #[memory "first" [shy], memory "second" [library second]]

end Sample

open Sample Operation

theorem within_of_restrained_shy :
    ∃ m, Passes access ⟨[first, second], .full⟩ (.start [shy] beside) m ∧
      m.stack = [⟨shy, "shy[first]", [timid]⟩] ∧ timid.optional ∧ timid.greedy = false ∧
      shy ∈ m.progress.state.units ∧ timid ∈ shy.requires ∧
      (∀ s, shy.owner = some s → m.Within access ⟨[first, second], .full⟩ beside timid [s]) ∧
      (shy.owner = none → m.Within access ⟨[first, second], .full⟩ beside timid [first, second]) := by
  have hm : Passes access ⟨[first, second], .full⟩ (.start [shy] beside) ⟨⟨[], _, _⟩, _⟩ :=
    .single (.root rfl)
  exact ⟨_, hm, rfl, rfl, rfl, within_of_restrained hm rfl rfl rfl rfl⟩

theorem restrained_beyond_owner :
    ¬∀ (S : Setting) (requested : List Installable) (w : Workspace) (m : Moment Workspace),
      Passes access S (.start requested w) m → ∀ f stack r rs, m.stack = f :: stack →
      f.pending = r :: rs → r.optional → r.greedy = false →
      (∀ t ∈ probed (m.asks access S), f.unit.owner = some t) ∧
      ∀ n, Next access S m n → ∀ q ∈ n.progress.state.units,
        q ∈ m.progress.state.units ∨ ∃ s, f.unit.owner = some s ∧ Offered access w s r q := by
  intro hall
  have hm : Passes access ⟨[first, second], .full⟩ (.start [stray] beside) ⟨⟨[], _, _⟩, _⟩ :=
    .single (.root rfl)
  obtain ⟨-, hentered⟩ := hall _ _ _ _ hm _ _ _ _ rfl rfl rfl rfl
  have hlibrary : library second ∈ [stray, library second] :=
    List.mem_cons_of_mem _ List.mem_cons_self
  obtain hvisited | ⟨s, howner, -⟩ := hentered ⟨⟨[], _, _⟩, _⟩ (.step rfl) (library second) hlibrary
  · have hid : (library second).id = stray.id :=
      congrArg Installable.id (List.mem_singleton.mp hvisited)
    exact absurd hid (by decide)
  · cases howner

end Provision.Resolution
