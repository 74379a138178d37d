import Provision.Proofs.Resolution.Gathering

namespace Provision.Resolution

variable {σ : Type} {A : Access σ} {w₀ : σ} {rs ts : List Source} {requested : List Installable}

theorem searchAll_append (owner : Option Source) (r : Requirement) (rs ts : List Source) :
    searchAll A owner r (rs ++ ts) = (do
      match ← searchAll A owner r rs with
      | some q => return some q
      | none => searchAll A owner r ts) := by
  induction rs with
  | nil => exact (pure_bind _ _).symm
  | cons s rs ih =>
    rw [List.cons_append, searchAll, searchAll]
    split
    case isTrue => exact ih
    case isFalse =>
      rw [bind_assoc]
      refine bind_congr ?_
      rintro (q | _ | f)
      · simp only [bind_assoc, pure_bind]
      · exact ih
      · simp only [bind_assoc, ih]

theorem searchAll_append_of_some {owner : Option Source} {r : Requirement} {w w' : σ}
    {q : Installable} (h : searchAll A owner r rs w = .ok (some q) w') (ts : List Source) :
    searchAll A owner r (rs ++ ts) w = .ok (some q) w' := by
  rw [searchAll_append, bind_of_ok h]
  rfl

/-- Whether a requirement of a unit gets no other answer from repositories that are searched late. -/
def Unswayed (u : Installable) (r : Requirement) : Prop :=
  r.optional = false ∨ (r.optional ∧ r.greedy = false ∧ u.owner ≠ none)

instance (u : Installable) (r : Requirement) : Decidable (Unswayed u r) :=
  inferInstanceAs (Decidable (_ ∨ _))

theorem follows_searchConfigured_append {r : Requirement} (hr : r.optional = false)
    (owner : Option Source) (path : String) (ts : List Source) :
    Follows A w₀ (searchConfigured A ⟨rs, .full⟩ r owner path)
      (searchConfigured A ⟨rs ++ ts, .full⟩ r owner path) := by
  intro w _ o w' h
  obtain ⟨found, v, hall, h⟩ := exists_of_bind_ok h
  cases found with
  | some q => exact (bind_of_ok (searchAll_append_of_some hall ts)).trans h
  | none =>
    -- Nothing was found, so the search would have ended the run.
    simp only [hr, Bool.false_eq_true, ↓reduceIte, reduceCtorEq] at h
    cases h

theorem follows_search_append {u : Installable} {r : Requirement} (hr : Unswayed u r)
    (path : String) (ts : List Source) :
    Follows A w₀ (search A ⟨rs, .full⟩ r u path) (search A ⟨rs ++ ts, .full⟩ r u path) := by
  cases hu : u.owner with
  | none =>
    rw [search_of_ownerless hu, search_of_ownerless hu]
    have hmandatory : r.optional = false := hr.resolve_right fun h => h.2.2 hu
    exact follows_searchConfigured_append hmandatory none path ts
  | some s =>
    rw [search_of_owner hu, search_of_owner hu]
    have hbeyond (answer : Probe) : Follows A w₀ (searchBeyond A ⟨rs, .full⟩ r s path answer)
        (searchBeyond A ⟨rs ++ ts, .full⟩ r s path answer) := by
      unfold searchBeyond
      obtain hmandatory | ⟨hoptional, hgreedy, -⟩ := hr
      · simp only [hmandatory, Bool.false_and, Bool.false_eq_true, ↓reduceIte, reduceCtorEq]
        exact follows_searchConfigured_append hmandatory (some s) path ts
      · simp only [hoptional, hgreedy, Bool.not_false, Bool.and_self, ↓reduceIte, reduceCtorEq]
        exact follows_refl _
    refine follows_bind (follows_refl _) (yields_probe s r) ?_
    rintro (q | _ | f)
    · exact follows_refl _
    · exact hbeyond .absent
    · exact hbeyond (.failed f)

/-- A run in full mode that returns does so with more repositories behind the configured ones, in the
same world, if nothing that its units require can be answered late. -/
theorem resolve_of_appended {w w' : σ} {R : Result}
    (h : resolve A ⟨rs, .full⟩ requested w = .ok R w')
    (hflags : ∀ u ∈ R.units.items, ∀ r ∈ u.requires, Unswayed u r) (ts : List Source) :
    resolve A ⟨rs ++ ts, .full⟩ requested w = .ok R w' := by
  have hlock : Lockstep A ⟨rs, .full⟩ A ⟨rs ++ ts, .full⟩ w := lockstep_of_full rfl _
  obtain ⟨v, rfl, happended⟩ := hlock.resolve h fun u hu r hr path =>
    follows_search_append (hflags u hu r hr) path ts
  have hmode : R.mode = .full := mode_of_resolve h
  have hR : { R with mode := .full } = R := by rw [← hmode]
  rwa [hR] at happended

namespace Sample

def modest : Installable :=
  unit first "modest" [asks "p", { asks "q" with optional := true, greedy := false }] []

def extended : Workspace where
  repositories := #[memory "first" [modest], memory "second" [library second],
    { memory "third" [] with isOffline := true },
    memory "fourth" [unit fourth "more" [] [gives "p", gives "q"]]]

end Sample

open Sample Operation in
theorem resolve_of_appended_extended :
    ∃ R w', resolve access ⟨[first, second], .full⟩ [modest] extended = .ok R w' ∧
      R.units.items = [modest, library second] ∧
      (∀ u ∈ R.units.items, ∀ r ∈ u.requires, Unswayed u r) ∧
      resolve access ⟨[first, second] ++ [third, fourth], .full⟩ [modest] extended = .ok R w' := by
  obtain ⟨w', h⟩ : ∃ w', resolve access ⟨[first, second], .full⟩ [modest] extended =
      .ok ⟨.full, ⟨[modest, library second]⟩, {}, {}, []⟩ w' :=
    resolve_of_resultWithin? (n := 10) rfl
  have hflags : ∀ u ∈ [modest, library second], ∀ r ∈ u.requires, Unswayed u r := by decide
  exact ⟨_, w', h, rfl, hflags, resolve_of_appended h hflags [third, fourth]⟩

end Provision.Resolution
