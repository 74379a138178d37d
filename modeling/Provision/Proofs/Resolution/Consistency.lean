import Provision.Proofs.Collection
import Provision.Proofs.Resolution.Closure

namespace Provision.Resolution

variable {σ : Type} {A : Access σ} {w₀ : σ} {S : Setting} {requested : List Installable}

theorem acts_of_move {c d : Config} (h : Move A w₀ S c d) {acts : List State.Act}
    (hc : c.progress.state = State.after acts) :
    ∃ more, d.progress.state = State.after (acts ++ more) := by
  have hone (a : State.Act) : (c.progress.state.perform a).1 = State.after (acts ++ [a]) := by
    rw [State.after_concat, hc]
  cases h with
  | skipRoot | leave | skip | drop => exact ⟨[], by rw [List.append_nil, ← hc]⟩
  | visitRoot => exact ⟨_, hone (.addUnit _)⟩
  | fail => exact ⟨_, hone (.addFailed _)⟩
  | meet => exact ⟨_, hone (.addResolved _)⟩
  | @visit us p u path r rs stack q =>
    refine ⟨[.addResolved r, .addUnit q], ?_⟩
    rw [List.append_cons, State.after_concat, ← hone]
    rfl

theorem acts_of_moves {d : Config} (h : Moves A w₀ S ⟨requested, {}, []⟩ d) :
    ∃ acts, d.progress.state = State.after acts := by
  induction h with
  | refl => exact ⟨[], rfl⟩
  | tail _ hm ih =>
    obtain ⟨acts, hacts⟩ := ih
    obtain ⟨more, hmore⟩ := acts_of_move hm hacts
    exact ⟨_, hmore⟩

/-- No visited unit has anything for a failed requirement, whichever came first. -/
theorem unmatched_of_moves {d : Config} (h : Moves A w₀ S ⟨requested, {}, []⟩ d) {r : Requirement}
    (hr : r ∈ d.progress.state.failed) {u : Installable} (hu : u ∈ d.progress.state.units) :
    u.satisfies r = false := by
  -- What a visited unit has something for is resolved, and what has failed is not.
  obtain ⟨acts, hacts⟩ := acts_of_moves h
  rw [hacts] at hr hu
  exact State.satisfies_of_isResolved_eq_false (State.unresolved_of_mem_failed hr) hu

theorem nodup_of_moves {d : Config} (h : Moves A w₀ S ⟨requested, {}, []⟩ d) :
    (d.progress.units.items.map Collection.key).Nodup := by
  induction h with
  | refl => exact List.nodup_nil
  | tail _ hm ih =>
    cases hm with
    | skipRoot | leave | skip | drop | fail | meet => exact ih
    | visitRoot | visit => exact Collection.nodup_keys_add ih _

theorem held_of_moves {d : Config} (h : Moves A w₀ S ⟨requested, {}, []⟩ d) {u : Installable}
    (hu : u ∈ requested) :
    u ∈ d.roots ∨ ∃ v ∈ d.progress.state.units, v.id = u.id ∧ v.version = u.version := by
  induction h with
  | refl => exact Or.inl hu
  | @tail c d hc hm ih =>
    obtain ih | ⟨v, hv, hk⟩ := ih
    · cases hm with
      | skipRoot hq =>
        obtain rfl | ih := List.mem_cons.mp ih
        · exact Or.inr (Progress.exists_of_holds (sound_of_moves hc).progress.visited hq)
        · exact Or.inl ih
      | visitRoot hq =>
        obtain rfl | ih := List.mem_cons.mp ih
        · refine Or.inr ⟨u, ?_, rfl, rfl⟩
          rw [Progress.units_visited hq]
          exact List.mem_append_right _ List.mem_cons_self
        · exact Or.inl ih
      | leave | skip | drop | fail | meet | visit => exact Or.inl ih
    · exact Or.inr ⟨v, (units_prefix_of_move hm).subset hv, hk⟩

/-- What the units and failed requirements of a result have to do with each other and with the run. -/
structure Consistent (A : Access σ) (S : Setting) (requested : List Installable) (w : σ)
    (R : Result) : Prop where
  /-- The units are those that the state counts as visited at the end. -/
  visited : ∃ p v, resolveAll A S requested {} w = some (.ok p v) ∧ R = p.result S.mode ∧
    R.units.items = p.state.units
  /-- They are in the order of the visits: what is visited at any moment comes first. -/
  ordered : ∀ m, Passes A S (.start requested w) m → m.progress.state.units <+: R.units.items
  distinct : (R.units.items.map fun u => (u.id, u.version)).Nodup
  requested : ∀ u ∈ requested, ∃ v ∈ R.units.items, v.id = u.id ∧ v.version = u.version
  full : S.mode = .full → R.failed = []
  unmatched : ∀ r ∈ R.failed, ∀ u ∈ R.units.items, u.satisfies r = false

theorem units_prefix_of_resolve {w w' : σ} {R : Result} (h : resolve A S requested w = .ok R w')
    {m : Moment σ} (hm : Passes A S (.start requested w) m) :
    m.progress.state.units <+: R.units.items := by
  obtain ⟨p, v, rfl, -, -, hp⟩ := passes_of_resolve h
  have hvisited : p.units.items = p.state.units := visited_of_passes hp
  have hend : m.ending A S = some (.ok p v) := by
    rw [← ending_of_passes hm, ← ending_finished]
    exact ending_of_passes hp
  have hrest : Passes A S m (.finished p v) := arrives_of_ending hend
  have hreach := (moves_of_passes .start hm).1
  exact hvisited ▸ units_prefix_of_moves (moves_of_passes hreach hrest).2

theorem failed_of_full (hS : S.mode = .full) {w w' : σ} {R : Result}
    (h : resolve A S requested w = .ok R w') : R.failed = [] := by
  obtain ⟨p, v, rfl, -, -, hp⟩ := passes_of_resolve h
  refine List.eq_nil_iff_forall_not_mem.mpr fun r hr => ?_
  obtain ⟨hslice, -⟩ := (sound_of_passes hp).progress.refused r hr
  rw [hS] at hslice
  cases hslice

theorem consistent_of_resolve {w w' : σ} {R : Result} (h : resolve A S requested w = .ok R w') :
    Consistent A S requested w R := by
  have hordered := fun m => units_prefix_of_resolve h (m := m)
  have hfull := fun hS => failed_of_full hS h
  obtain ⟨p, v, rfl, -, hall, hp⟩ := passes_of_resolve h
  obtain ⟨-, hm⟩ := moves_of_passes .start hp
  have hvisited : p.units.items = p.state.units := visited_of_passes hp
  refine ⟨⟨p, v, hall, rfl, hvisited⟩, hordered, nodup_of_moves hm, fun u hu => ?_, hfull,
    fun r hr u hu => unmatched_of_moves hm hr (hvisited ▸ hu)⟩
  obtain hroot | hheld := held_of_moves hm hu
  · cases hroot
  · exact hvisited ▸ hheld

open Sample in
/-- A requirement fails before the library that has something for it is visited as requested. -/
theorem consistent_of_late_library :
    ∃ R w', resolve Operation.access ⟨[first, second], .slice⟩ [plain, library second] apart =
        .ok R w' ∧
      R.units.items = [plain, library second] ∧
      Consistent Operation.access ⟨[first, second], .slice⟩ [plain, library second] apart R := by
  obtain ⟨w', h⟩ : ∃ w', resolve Operation.access ⟨[first, second], .slice⟩
      [plain, library second] apart = .ok ⟨.slice, ⟨[plain, library second]⟩, {}, {}, []⟩ w' :=
    resolve_of_resultWithin? (n := 10) rfl
  exact ⟨_, w', h, rfl, consistent_of_resolve h⟩

end Provision.Resolution
