import Provision.Proofs.Resolution.Closure
import Provision.Proofs.Workspace.Steady

namespace Provision.Resolution

variable {σ : Type} {A : Access σ} {w₀ : σ} {S : Setting} {requested : List Installable}

theorem Found.satisfies {u q : Installable} {r : Requirement}
    (h : Found A w₀ S u r (.provider q)) : q.satisfies r := by
  obtain ⟨s, -, hoff⟩ := Chosen.exists_offered h
  exact hoff.satisfies

/-- Every unit was requested, or found for a requirement of a unit in front of it. -/
def Reasoned (A : Access σ) (w₀ : σ) (S : Setting) (requested units : List Installable) : Prop :=
  ∀ before q after, units = before ++ q :: after →
    q ∈ requested ∨ ∃ v ∈ before, ∃ r ∈ v.requires, Found A w₀ S v r (.provider q)

theorem Reasoned.concat {units : List Installable} (h : Reasoned A w₀ S requested units)
    {q : Installable}
    (hq : q ∈ requested ∨ ∃ v ∈ units, ∃ r ∈ v.requires, Found A w₀ S v r (.provider q)) :
    Reasoned A w₀ S requested (units ++ [q]) := by
  intro before u after he
  -- Either the new unit is the one looked at, or it is behind it.
  obtain rfl | ⟨after, last, rfl⟩ := List.eq_nil_or_concat after
  · obtain ⟨rfl, hlast⟩ := List.append_inj' he rfl
    obtain rfl := List.singleton_inj.mp hlast
    exact hq
  · rw [List.concat_eq_append, ← List.cons_append, ← List.append_assoc] at he
    exact h before u after (List.append_inj' he rfl).1

theorem roots_subset_of_moves {d : Config} (h : Moves A w₀ S ⟨requested, {}, []⟩ d) :
    d.roots ⊆ requested := by
  induction h with
  | refl => exact List.Subset.refl _
  | tail _ hm ih => exact List.Subset.trans (roots_subset_of_move hm) ih

theorem reasoned_of_moves {d : Config} (h : Moves A w₀ S ⟨requested, {}, []⟩ d) :
    Reasoned A w₀ S requested d.progress.state.units := by
  induction h with
  | refl =>
    intro before q after he
    simp at he
  | tail hc hm ih =>
    obtain he | ⟨q, he, hq⟩ := units_of_move hm
    · rwa [he]
    · rw [he]
      refine ih.concat ?_
      obtain hroot | ⟨f, hf, r, hr, hfound⟩ := hq
      · exact Or.inl (roots_subset_of_moves hc hroot)
      · obtain ⟨hunit, hpending⟩ := (sound_of_moves hc).attended.entered f hf
        exact Or.inr ⟨f.unit, hunit, r, hpending.subset hr, hfound⟩

/-- No unit is in a result without a reason, as far as the repositories list the same units whenever
they can be read. -/
theorem requested_or_designated_of_resolve {w w' : σ} {R : Result}
    (h : resolve A S requested w = .ok R w') {L : Listing}
    (hL : ∀ c ∈ calls A S requested w, L.Allows c) {before after : List Installable}
    {q : Installable} (hq : R.units.items = before ++ q :: after) :
    q ∈ requested ∨ ∃ v ∈ before, ∃ r ∈ v.requires,
      q.satisfies r ∧ S.Designates L (calls A S requested w) v r q := by
  obtain ⟨p, v, rfl, -, -, hp⟩ := replay_of_resolve h
  obtain ⟨-, hm⟩ := moves_of_passes .start hp
  have hvisited : p.units.items = p.state.units := visited_of_passes hp
  obtain hreq | ⟨v, hv, r, hr, hfound⟩ := reasoned_of_moves hm before q after (hvisited ▸ hq)
  · exact Or.inl hreq
  · exact Or.inr ⟨v, hv, r, hr, hfound.satisfies, designates_of_found hL hfound⟩

theorem inMemory_memory (name : String) (units : List Installable) :
    (Sample.memory name units).InMemory :=
  ⟨⟨name, rfl⟩, fun _ h => by cases h⟩

theorem steady_apart :
    Steady Operation.access Sample.apart Sample.apart.listing Sample.apart.naming :=
  Workspace.steady_of_resembles (.refl_of_inMemory (by simp [Sample.apart, inMemory_memory]))

open Sample in
theorem requested_or_designated_of_apart :
    ∃ R w', resolve Operation.access ⟨[first, second], .full⟩ [plain] apart = .ok R w' ∧
      (∀ c ∈ calls Operation.access ⟨[first, second], .full⟩ [plain] apart,
        apart.listing.Allows c) ∧
      R.units.items = [plain] ++ library second :: [] ∧
      (library second ∈ [plain] ∨ ∃ v ∈ [plain], ∃ r ∈ v.requires,
        (library second).satisfies r ∧
          Setting.Designates ⟨[first, second], .full⟩ apart.listing
            (calls Operation.access ⟨[first, second], .full⟩ [plain] apart) v r
            (library second)) := by
  obtain ⟨w', h⟩ : ∃ w', resolve Operation.access ⟨[first, second], .full⟩ [plain] apart =
      .ok ⟨.full, ⟨[plain, library second]⟩, {}, {}, []⟩ w' :=
    resolve_of_resultWithin? (n := 10) rfl
  have hL : ∀ c ∈ calls Operation.access ⟨[first, second], .full⟩ [plain] apart,
      apart.listing.Allows c := fun c hc => steady_apart.allows_listing hc
  exact ⟨_, w', h, hL, rfl, requested_or_designated_of_resolve h hL rfl⟩

end Provision.Resolution
