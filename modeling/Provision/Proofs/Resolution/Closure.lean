import Provision.Proofs.Resolution.Bounded
import Provision.Proofs.Resolution.Settled
import Provision.Proofs.Workspace.Memory

namespace Provision.Resolution

open Provision.Operation

variable {σ : Type} {A : Access σ} {w₀ w' : σ} {S : Setting} {requested : List Installable}
  {R : Result}

theorem settled_of_resolve (h : resolve A S requested w₀ = .ok R w') :
    ∃ p : Progress, R = p.result S.mode ∧ p.Sound A w₀ S ∧
      ∀ u ∈ p.state.units, ∀ r ∈ u.requires, Settled S p.state u r := by
  obtain ⟨p, rfl, hm⟩ := moves_of_resolve h
  exact ⟨p, rfl, (sound_of_moves hm).progress, fun u hu r hr => settled_of_moves hm rfl hu hr⟩

/-- In full mode every mandatory requirement of a unit of a result has a provider there, or a provider
was found whose id and version a unit there has. -/
theorem answered_of_full (hS : S.mode = .full) (h : resolve A S requested w₀ = .ok R w')
    {u : Installable} (hu : u ∈ R.units.items) {r : Requirement} (hr : r ∈ u.requires)
    (hm : r.optional = false) : Answered A w₀ S R.units.items r := by
  obtain ⟨p, rfl, hp, hs⟩ := settled_of_resolve h
  dsimp only [Progress.result] at hu ⊢
  rw [hp.visited] at hu ⊢
  obtain hres | hf | ⟨ho, -⟩ := hs u hu r hr
  · exact hp.answered r hres
  · obtain ⟨q, hq, -⟩ := (State.isFailed_iff _ r).mp hf
    obtain ⟨hslice, -⟩ := hp.refused q hq
    rw [hS] at hslice
    cases hslice
  · rw [hm] at ho
    cases ho

namespace Sample

def one : Version := ⟨1, 0, 0, ""⟩

def asks (name : String) : Requirement := { namespaceName := "java.package", name := name }

def gives (name : String) : Capability := ⟨"java.package", name, one⟩

def unit (owner : Source) (id : String) (requires : List Requirement) (provides : List Capability) :
    Installable :=
  .build unitNamespace id one requires provides [] (some owner)

def memory (name : String) (units : List Installable) : Repository :=
  { identity := .memory name, declared := units }

def first : Source := ⟨.memory "first", 0⟩

def second : Source := ⟨.memory "second", 1⟩

def third : Source := ⟨.memory "third", 2⟩

def fourth : Source := ⟨.memory "fourth", 3⟩

def app : Installable :=
  unit first "app" [{ namespaceName := unitNamespace, name := "lib" }, asks "p"] []

def twofold : Workspace where
  repositories := #[memory "first" [app, unit first "lib" [] []],
    memory "second" [unit second "lib" [] [gives "p"]]]

end Sample

open Sample

theorem resolve_twofold :
    ∃ w', resolve access ⟨[first, second], .full⟩ [app] twofold =
      .ok ⟨.full, ⟨[app, unit first "lib" [] []]⟩, {}, {}, []⟩ w' :=
  resolve_of_resultWithin? (n := 10) rfl

theorem answered_of_full_twofold :
    ∃ R w', resolve access ⟨[first, second], .full⟩ [app] twofold = .ok R w' ∧
      app ∈ R.units.items ∧ asks "p" ∈ app.requires ∧ (asks "p").optional = false ∧
      Answered access twofold ⟨[first, second], .full⟩ R.units.items (asks "p") := by
  obtain ⟨w', h⟩ := resolve_twofold
  have hr : asks "p" ∈ app.requires := List.mem_cons_of_mem _ List.mem_cons_self
  exact ⟨_, w', h, List.mem_cons_self, hr, rfl, answered_of_full rfl h List.mem_cons_self hr rfl⟩

theorem full_not_provided :
    ¬∀ (S : Setting) (requested : List Installable) (w w' : Workspace) (R : Result),
      S.mode = .full → resolve access S requested w = .ok R w' →
      ∀ u ∈ R.units.items, ∀ r ∈ u.requires, r.optional = false → Provided R.units.items r := by
  intro hall
  obtain ⟨w', h⟩ := resolve_twofold
  have hnone : ¬Provided [app, unit first "lib" [] []] (asks "p") := by decide +kernel
  exact hnone (hall _ _ _ w' _ rfl h app List.mem_cons_self (asks "p")
    (List.mem_cons_of_mem _ List.mem_cons_self) rfl)

/-- A repository has a unit for a requirement whenever it is asked. -/
def Offering (A : Access σ) (w₀ : σ) (s : Source) (r : Requirement) : Prop :=
  ∀ w, Reaches A w₀ w → ∃ units w', A.list s w = .ok units w' ∧ ∃ q ∈ units, q.satisfies r

theorem Offering.not_lacking {s : Source} {q r : Requirement} (h : Offering A w₀ s r)
    (hk : q.key = r.key) : ¬Lacking A w₀ s q := by
  rintro (⟨w, hw, f, v, hl, -⟩ | ⟨units, ⟨w, hw, v, hl⟩, hnone⟩)
  · obtain ⟨us, v', hl', -⟩ := h w hw
    rw [hl] at hl'
    cases hl'
  · obtain ⟨us, v', hl', p, hp, hr⟩ := h w hw
    rw [hl] at hl'
    cases hl'
    have := hnone p hp
    rw [Installable.satisfies_congr p hk, hr] at this
    cases this

/-- In slice mode a requirement of an owned unit of a result is answered there, or it failed as one
that another unit declares, for which the repositories that were searched had nothing; a repository
that always has something for it is not the one of that unit. -/
theorem answered_or_failed_of_slice (hS : S.mode = .slice)
    (h : resolve A S requested w₀ = .ok R w') {u : Installable} (hu : u ∈ R.units.items)
    {s : Source} (hs : u.owner = some s) {r : Requirement} (hr : r ∈ u.requires) :
    Answered A w₀ S R.units.items r ∨
      ∃ q ∈ R.failed, q.key = r.key ∧ ∃ v ∈ R.units.items, q ∈ v.requires ∧
        (∀ t ∈ S.sources v, Lacking A w₀ t q) ∧ (Offering A w₀ s r → v.owner ≠ some s) := by
  obtain ⟨p, rfl, hp, hset⟩ := settled_of_resolve h
  dsimp only [Progress.result] at hu ⊢
  rw [hp.visited] at hu ⊢
  obtain hres | hf | ⟨-, hown⟩ := hset u hu r hr
  · exact Or.inl (hp.answered r hres)
  · obtain ⟨q, hq, hk⟩ := (State.isFailed_iff _ r).mp hf
    obtain ⟨-, v, hv, hqv, hlack⟩ := hp.refused q hq
    refine Or.inr ⟨q, hq, hk, v, hv, hqv, hlack, fun hoff hvs => ?_⟩
    rw [Setting.sources_of_slice hvs hS] at hlack
    exact hoff.not_lacking hk (hlack s List.mem_cons_self)
  · rw [hown hS] at hs
    cases hs

theorem offering_of_holds {w : Workspace} {s : Source} {units : List Installable}
    (hw : w.Holds s units) {r : Requirement} (hr : Provided units r) : Offering access w s r := by
  intro v hv
  obtain ⟨v', hl⟩ := list_of_holds (holds_of_reaches hv hw)
  exact ⟨units, v', hl, hr⟩

namespace Sample

def plain : Installable := unit first "plain" [asks "p"] []

def rich : Installable := unit second "rich" [asks "p"] []

def library (owner : Source) : Installable := unit owner "lib" [] [gives "p"]

def apart : Workspace where
  repositories := #[memory "first" [plain], memory "second" [rich, library second]]

def doubled : Workspace where
  repositories := #[memory "first" [app, unit first "lib" [] [], library first]]

end Sample

theorem resolve_apart :
    ∃ w', resolve access ⟨[first, second], .slice⟩ [plain, rich] apart =
      .ok ⟨.slice, ⟨[plain, rich]⟩, {}, {}, [asks "p"]⟩ w' :=
  resolve_of_resultWithin? (n := 10) rfl

theorem resolve_doubled :
    ∃ w', resolve access ⟨[first], .slice⟩ [app] doubled =
      .ok ⟨.slice, ⟨[app, unit first "lib" [] []]⟩, {}, {}, []⟩ w' :=
  resolve_of_resultWithin? (n := 10) rfl

theorem offering_apart : Offering access apart second (asks "p") := by
  refine offering_of_holds ⟨_, rfl, ⟨_, rfl⟩, rfl, rfl, fun _ h => by cases h⟩ ?_
  decide +kernel

theorem answered_or_failed_of_slice_apart :
    ∃ R w', resolve access ⟨[first, second], .slice⟩ [plain, rich] apart = .ok R w' ∧
      rich ∈ R.units.items ∧ rich.owner = some second ∧ asks "p" ∈ rich.requires ∧
      (Answered access apart ⟨[first, second], .slice⟩ R.units.items (asks "p") ∨
        ∃ q ∈ R.failed, q.key = (asks "p").key ∧ ∃ v ∈ R.units.items, q ∈ v.requires ∧
          (∀ t ∈ Setting.sources ⟨[first, second], .slice⟩ v, Lacking access apart t q) ∧
          (Offering access apart second (asks "p") → v.owner ≠ some second)) := by
  obtain ⟨w', h⟩ := resolve_apart
  have hu : rich ∈ [plain, rich] := List.mem_cons_of_mem _ List.mem_cons_self
  exact ⟨_, w', h, hu, rfl, List.mem_cons_self,
    answered_or_failed_of_slice rfl h hu rfl List.mem_cons_self⟩

/-- In slice mode a result has what the own repositories of its units always have for them. -/
def SliceProvides (w : Workspace) (repositories : List Source) (requested : List Installable) :
    Prop :=
  ∀ R w', resolve access ⟨repositories, .slice⟩ requested w = .ok R w' →
    ∀ u ∈ R.units.items, ∀ s, u.owner = some s → ∀ r ∈ u.requires, Offering access w s r →
      Provided R.units.items r

/-- A failure elsewhere keeps a provider out of a result, and so does its id and version. -/
theorem slice_not_provided :
    ¬SliceProvides apart [first, second] [plain, rich] ∧ ¬SliceProvides doubled [first] [app] := by
  constructor
  · intro hall
    obtain ⟨w', h⟩ := resolve_apart
    have hnone : ¬Provided [plain, rich] (asks "p") := by decide +kernel
    exact hnone (hall _ w' h rich (List.mem_cons_of_mem _ List.mem_cons_self) second rfl
      (asks "p") List.mem_cons_self offering_apart)
  · intro hall
    obtain ⟨w', h⟩ := resolve_doubled
    have hoff : Offering access doubled first (asks "p") := by
      refine offering_of_holds ⟨_, rfl, ⟨_, rfl⟩, rfl, rfl, fun _ h => by cases h⟩ ?_
      decide +kernel
    have hnone : ¬Provided [app, unit first "lib" [] []] (asks "p") := by decide +kernel
    exact hnone (hall _ w' h app List.mem_cons_self first rfl (asks "p")
      (List.mem_cons_of_mem _ List.mem_cons_self) hoff)

end Provision.Resolution
