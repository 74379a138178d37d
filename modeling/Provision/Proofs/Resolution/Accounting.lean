import Provision.Proofs.Resolution.Consistency
import Provision.Proofs.Resolution.Provenance

namespace Provision.Resolution

variable {σ : Type} {A : Access σ} {S : Setting} {requested : List Installable}

/-- The units of a repository that an answer tells of. -/
def Call.units : Call → List Installable
  | ⟨.list _, .ok units⟩ => units
  | _ => []

/-- The units that a run gets to see: the requested ones and those of the repositories that it
consults. -/
def seen (requested : List Installable) (cs : List Call) : List Installable :=
  requested ++ cs.flatMap Call.units

/-- Units of one id and version provide the same. -/
def Uniform (units : List Installable) : Prop :=
  ∀ a ∈ units, ∀ b ∈ units, a.id = b.id → a.version = b.version →
    ∀ c, c ∈ a.provides ↔ c ∈ b.provides

instance : DecidablePred Uniform := fun units =>
  decidable_of_iff (∀ a ∈ units, ∀ b ∈ units, a.id = b.id → a.version = b.version →
    a.provides ⊆ b.provides)
    ⟨fun h a ha b hb hid hv _ => ⟨(h a ha b hb hid hv ·), (h b hb a ha hid.symm hv.symm ·)⟩,
      fun h a ha b hb hid hv c => (h a ha b hb hid hv c).mp⟩

theorem Uniform.of_subset {as bs : List Installable} (h : Uniform bs) (hs : as ⊆ bs) : Uniform as :=
  fun a ha b hb => h a (hs ha) b (hs hb)

theorem satisfies_of_provides {a b : Installable} {r : Requirement}
    (h : ∀ c, c ∈ a.provides ↔ c ∈ b.provides) (ha : a.satisfies r) : b.satisfies r := by
  obtain ⟨c, hc, hr⟩ := List.any_eq_true.mp ha
  exact List.any_eq_true.mpr ⟨c, (h c).mp hc, hr⟩

theorem mem_seen_of_offered {cs : List Call} {s : Source} {r : Requirement} {q : Installable}
    (h : Offered replay cs s r q) : q ∈ seen requested cs := by
  obtain ⟨units, ⟨rest, hr, rest', hlist⟩, hq⟩ := h
  have hcall : (⟨.list s, .ok units⟩ : Call) ∈ cs := mem_of_hear_ok hr hlist
  exact List.mem_append_right _ (List.mem_flatMap.mpr ⟨_, hcall, List.mem_of_find?_eq_some hq⟩)

theorem mem_seen_of_moves {cs : List Call} {d : Config}
    (h : Moves replay cs S ⟨requested, {}, []⟩ d) {q : Installable}
    (hq : q ∈ d.progress.state.units) : q ∈ seen requested cs := by
  obtain ⟨before, after, he⟩ := List.append_of_mem hq
  obtain hreq | ⟨v, -, r, -, hfound⟩ := reasoned_of_moves h before q after he
  · exact List.mem_append_left _ hreq
  · obtain ⟨s, -, hoff⟩ := Chosen.exists_offered hfound
    exact mem_seen_of_offered hoff

/-- What stands for a provider provides the same. -/
theorem provided_of_answered {cs : List Call} {units : List Installable} {r : Requirement}
    (hsame : Uniform (seen requested cs)) (hunits : units ⊆ seen requested cs)
    (h : Answered replay cs S units r) : Provided units r := by
  obtain h | ⟨-, -, -, s, -, q, hoff, v, hv, hid, hversion⟩ := h
  · exact h
  · have hprovides := hsame q (mem_seen_of_offered hoff) v (hunits hv) hid.symm hversion.symm
    exact ⟨v, hv, satisfies_of_provides hprovides hoff.satisfies⟩

theorem accounted_of_slice {w w' : σ} {R : Result} (hS : S.mode = .slice)
    (h : resolve A S requested w = .ok R w')
    (hsame : Uniform (seen requested (calls A S requested w))) {u : Installable}
    (hu : u ∈ R.units.items) {r : Requirement} (hr : r ∈ u.requires) :
    (Provided R.units.items r ∧ ∀ q ∈ R.failed, q.key ≠ r.key) ∨
    (¬Provided R.units.items r ∧ ∃ q ∈ R.failed, q.key = r.key) ∨
    (¬Provided R.units.items r ∧ (∀ q ∈ R.failed, q.key ≠ r.key) ∧ r.optional ∧
      u.owner = none) := by
  obtain ⟨p, v, rfl, -, -, hp⟩ := replay_of_resolve h
  obtain ⟨-, hm⟩ := moves_of_passes .start hp
  have hsound := (sound_of_moves hm).progress
  dsimp only [Progress.result] at hu ⊢
  have hvisited : p.units.items = p.state.units := hsound.visited
  rw [hvisited] at hu ⊢
  have hseen : p.state.units ⊆ seen requested (calls A S requested w) :=
    fun q hq => mem_seen_of_moves hm hq
  -- A failed requirement of the same key would be matched by the provider as well.
  have hapart : Provided p.state.units r → ∀ q ∈ p.state.failed, q.key ≠ r.key := by
    rintro ⟨v, hv, hvr⟩ q hq hk
    rw [← Installable.satisfies_congr v hk, unmatched_of_moves hm hq hv] at hvr
    cases hvr
  by_cases hprov : Provided p.state.units r
  · exact Or.inl ⟨hprov, hapart hprov⟩
  · refine Or.inr ?_
    by_cases hfailed : ∃ q ∈ p.state.failed, q.key = r.key
    · exact Or.inl ⟨hprov, hfailed⟩
    · refine Or.inr ⟨hprov, fun q hq hk => hfailed ⟨q, hq, hk⟩, ?_⟩
      obtain hres | hf | ⟨ho, hown⟩ := settled_of_moves hm rfl hu hr
      · exact absurd (provided_of_answered hsame hseen (hsound.answered r hres)) hprov
      · exact absurd ((State.isFailed_iff _ r).mp hf) hfailed
      · exact ⟨ho, hown hS⟩

theorem seen_subset_of_resembles {w : Workspace} (hw : w.Resembles w) :
    seen requested (calls Operation.access S requested w) ⊆
      requested ++ w.repositories.toList.flatMap Repository.declared := by
  refine List.append_subset.mpr ⟨List.subset_append_left _ _, fun q hq => ?_⟩
  obtain ⟨⟨question, answer⟩, hc, hq⟩ := List.mem_flatMap.mp hq
  have hallows := (Workspace.steady_of_resembles hw).allows_listing hc
  cases question with
  | materialize u | describe s => cases hq
  | list s =>
    cases answer with
    | error f => cases hq
    | ok units =>
      obtain rfl : units = w.listing s := hallows
      exact List.mem_append_right _ (Workspace.listing_subset w s hq)

namespace Sample

def spare : Requirement := { asks "q" with optional := true }

def loose : Installable := .build unitNamespace "loose" one [asks "p", spare] [] [] none

def shared : Workspace where
  repositories := #[memory "first" [plain, library first], memory "second" [rich, library second]]

end Sample

open Sample in
/-- The package that the loose unit can do without is searched in both repositories and dropped. -/
theorem accounted_of_shared :
    ∃ R w', resolve Operation.access ⟨[first, second], .slice⟩ [plain, loose] shared = .ok R w' ∧
      Uniform (seen [plain, loose]
        (calls Operation.access ⟨[first, second], .slice⟩ [plain, loose] shared)) ∧
      loose ∈ R.units.items ∧ spare ∈ loose.requires ∧
      ((Provided R.units.items spare ∧
          ∀ q ∈ R.failed, q.key ≠ spare.key) ∨
        (¬Provided R.units.items spare ∧
          ∃ q ∈ R.failed, q.key = spare.key) ∨
        (¬Provided R.units.items spare ∧
          (∀ q ∈ R.failed, q.key ≠ spare.key) ∧ spare.optional ∧ loose.owner = none)) := by
  obtain ⟨w', h⟩ : ∃ w', resolve Operation.access ⟨[first, second], .slice⟩ [plain, loose] shared =
      .ok ⟨.slice, ⟨[plain, library first, loose]⟩, {}, {}, []⟩ w' :=
    resolve_of_resultWithin? (n := 10) rfl
  have hmemory : shared.Resembles shared :=
    .refl_of_inMemory (by simp [shared, inMemory_memory])
  have hsame : Uniform ([plain, loose] ++
      shared.repositories.toList.flatMap Repository.declared) := by
    decide +kernel
  have hseen := hsame.of_subset
    (seen_subset_of_resembles (S := ⟨[first, second], .slice⟩) hmemory)
  have hu : loose ∈ [plain, library first, loose] := by simp
  have hr : spare ∈ loose.requires :=
    List.mem_cons_of_mem _ List.mem_cons_self
  exact ⟨_, w', h, hseen, hu, hr, accounted_of_slice rfl h hseen hu hr⟩

end Provision.Resolution
