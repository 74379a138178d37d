import Provision.Proofs.Resolution.Termination

namespace Provision

open Provision.Operation

def Installable.Resident (u : Installable) : Prop :=
  ∀ s, u.owner = some s → ∃ name, s.identity = .memory name

/-- All repositories are in memory, and so are those that their units belong to. -/
structure Workspace.Resident (w : Workspace) : Prop where
  inMemory : ∀ r ∈ w.repositories, r.InMemory
  units : ∀ r ∈ w.repositories, ∀ u ∈ r.declared, u.Resident

namespace Resolution

variable {σ : Type} {A : Access σ} {S : Setting} {requested listed : List Installable} {w w' : σ}

/-- Where a repository cannot be described, it is not because something is missing. -/
def Nameable (A : Access σ) (w : σ) : Prop :=
  ∀ ⦃v⦄, Reaches A w v → ∀ ⦃s f v'⦄, A.describe s v = .error f v' → f.isMissing = false

/-- Repositories that fail only because something is missing, all the time or some of the time; what
they list is among some units. -/
structure Sparing (A : Access σ) (w : σ) (requested listed : List Installable) : Prop where
  covered : ∀ ⦃v⦄, Reaches A w v → ∀ ⦃s units v'⦄, A.list s v = .ok units v' → units ⊆ listed
  unlisted : ∀ ⦃v⦄, Reaches A w v → ∀ ⦃s f v'⦄, A.list s v = .error f v' → f.isMissing
  materialize : ∀ ⦃v⦄, Reaches A w v → ∀ u ∈ requested ++ listed, ∀ ⦃f v'⦄,
    A.materialize u v = .error f v' → f.isMissing
  describe : ∀ ⦃v⦄, Reaches A w v → ∀ ⦃s f v'⦄, A.describe s v ≠ .error f v'

theorem broken_of_slice (hS : S.mode = .slice) {m : Moment σ} {f : Failure}
    (hm : Passes A S (.start requested w) m) (h : Stops A S m f w') :
    Broken A w S (m.Awaits A w S) f := by
  obtain ⟨hreach, -⟩ := moves_of_passes .start hm
  obtain hbroken | ⟨frame, -, r, -, -, -, -, -, hfull, -⟩ := broken_or_unmet_of_stops hreach h
  · exact hbroken
  · rw [hS] at hfull
    cases hfull

theorem not_missing_of_slice (hS : S.mode = .slice) (hA : Nameable A w) {f : Failure}
    (h : resolve A S requested w = .error f w') : f.isMissing = false := by
  by_cases hf : f = .exhausted
  · rw [hf]
    rfl
  · obtain ⟨m, hm, hs⟩ := stops_of_resolve h hf
    cases broken_of_slice hS hm hs with
    | list _ _ hf => exact hf
    | materialize _ _ _ hf => exact hf hS
    | describe hv hd => exact hA hv hd

theorem Sparing.mem_of_awaits (h : Sparing A w requested listed) {m : Moment σ}
    (hm : Passes A S (.start requested w) m) {q : Installable} (hq : m.Awaits A w S q) :
    q ∈ requested ++ listed := by
  obtain ⟨-, hmoves⟩ := moves_of_passes .start hm
  obtain hroot | ⟨f, -, r, -, hfound⟩ := hq
  · exact List.mem_append_left _ (roots_subset_of_moves hmoves hroot)
  · obtain ⟨s, -, units, ⟨v, hv, v', hlist⟩, hfirst⟩ := Chosen.exists_offered hfound
    exact List.mem_append_right _ (h.covered hv hlist (List.mem_of_find?_eq_some hfirst))

/-- Where repositories fail only because something is missing, no run in slice mode fails. -/
theorem Sparing.not_broken (h : Sparing A w requested listed) (hS : S.mode = .slice) {m : Moment σ}
    (hm : Passes A S (.start requested w) m) (f : Failure) : ¬Broken A w S (m.Awaits A w S) f := by
  rintro (⟨hv, hlist, hf⟩ | ⟨hv, hu, hmat, hf⟩ | ⟨hv, hd⟩)
  · rw [h.unlisted hv hlist] at hf
    cases hf
  · have hmissing := h.materialize hv _ (h.mem_of_awaits hm hu) hmat
    rw [hf hS] at hmissing
    cases hmissing
  · exact h.describe hv hd

theorem returns_of_sparing (hS : S.mode = .slice) (h : Sparing A w requested listed) :
    ∃ R w', resolve A S requested w = .ok R w' := by
  obtain ⟨e, he⟩ := exists_resolveAll (S := S) (confined_of_reaches h.covered)
  cases e with
  | ok p v => exact ⟨_, _, by rw [resolve, he]; rfl⟩
  | error f v =>
    obtain ⟨m, hm, hs⟩ : Arrives A S [] (.start requested w) (.error f v) :=
      arrives_of_resolveAll he
    exact absurd (broken_of_slice hS hm hs) (h.not_broken hS hm f)

theorem nameable_access (w : Workspace) : Nameable access w := by
  intro v _ s f v' h
  rw [eq_numeral_of_describe h]
  rfl

theorem locate_of_resident {u : Installable} (hu : u.Resident) (w : Workspace) :
    locate w u = fun a => .ok a.path := by
  unfold locate
  cases ho : u.owner with
  | none => rfl
  | some s =>
    obtain ⟨name, hname⟩ := hu s ho
    rw [Option.map_some, hname]
    rfl

theorem isMissing_of_resident {u : Installable} (hu : u.Resident) {v v' : Workspace} {f : Failure}
    (h : materialize u v = .error f v') : f.isMissing := by
  rw [materialize, get_bind, locate_of_resident hu v] at h
  dsimp only at h
  split at h
  · cases h
    rfl
  · cases hc : Contents.ofArtifacts (fun a => (.ok a.path : Except Failure String)) u.artifacts with
    | ok c =>
      rw [hc] at h
      cases h
    | error g =>
      obtain ⟨a, -, ha⟩ := Contents.exists_of_ofArtifacts hc
      cases ha

theorem sparing_of_resident {w : Workspace} (hw : w.Resident) (hreq : ∀ u ∈ requested, u.Resident) :
    Sparing access w requested (w.repositories.toList.flatMap Repository.declared) := by
  have hreach {v : Workspace} (hv : Reaches access w v) : w.Resembles v :=
    Workspace.resembles_of_reaches hv (.refl_of_inMemory hw.inMemory)
  have hunits {u : Installable} (hu : u ∈ w.repositories.toList.flatMap Repository.declared) :
      u.Resident := by
    obtain ⟨r, hr, hur⟩ := List.mem_flatMap.mp hu
    exact hw.units r (Array.mem_toList_iff.mp hr) u hur
  refine ⟨?_, ?_, ?_, ?_⟩
  · intro v hv s units v' h
    obtain rfl := (hreach hv).eq_listing h
    exact Workspace.listing_subset w s
  · intro v hv s f v' h
    exact (hreach hv).isMissing_of_list h
  · intro v _ u hu f v' h
    obtain hu | hu := List.mem_append.mp hu
    · exact isMissing_of_resident (hreq u hu) h
    · exact isMissing_of_resident (hunits hu) h
  · intro v hv s f v' h
    rw [show access.describe s v = _ from (hreach hv).describe s] at h
    cases h

/-- No run in slice mode fails because something is missing, provided that naming a repository does
not, as it never does in a workspace. It returns a result where the repositories fail for no other
reason, as those in memory do. -/
theorem tolerant_of_slice (hS : S.mode = .slice) :
    (∀ {σ : Type} {A : Access σ} {w w' : σ} {f : Failure}, Nameable A w →
      resolve A S requested w = .error f w' → f.isMissing = false) ∧
    (∀ {w w' : Workspace} {f : Failure}, resolve access S requested w = .error f w' →
      f.isMissing = false) ∧
    (∀ {σ : Type} {A : Access σ} {w : σ} {listed : List Installable},
      Sparing A w requested listed → ∃ R w', resolve A S requested w = .ok R w') ∧
    ∀ {w : Workspace}, w.Resident → (∀ u ∈ requested, u.Resident) →
      ∃ R w', resolve access S requested w = .ok R w' := by
  refine ⟨?_, ?_, ?_, ?_⟩
  · intro σ A w w' f hA h
    exact not_missing_of_slice hS hA h
  · intro w w' f h
    exact not_missing_of_slice hS (nameable_access w) h
  · intro σ A w listed h
    exact returns_of_sparing hS h
  · intro w hw hreq
    exact returns_of_sparing hS (sparing_of_resident hw hreq)

namespace Sample

def hollow : Workspace where
  repositories := #[{ memory "first" [plain] with isOffline := true },
    { memory "second" [rich, library second] with lacksContent := true }]

def crooked : Source := ⟨.remote "http://host:port/", 0⟩

def astray : Workspace where
  repositories := #[{ identity := crooked.identity }]

end Sample

open Sample

theorem resident_of_memory {u : Installable} {name : String} {handle : Nat}
    (hu : u.owner = some ⟨.memory name, handle⟩) : u.Resident := by
  intro s hs
  obtain rfl := Option.some.inj (hu.symm.trans hs)
  exact ⟨name, rfl⟩

theorem resident_hollow : hollow.Resident := by
  have hinMemory : ∀ r ∈ hollow.repositories, r.InMemory := by
    simp only [hollow, List.mem_toArray, List.mem_cons, List.not_mem_nil, or_false,
      forall_eq_or_imp, forall_eq]
    exact ⟨⟨⟨"first", rfl⟩, nofun⟩, ⟨"second", rfl⟩, nofun⟩
  have hunits : ∀ r ∈ hollow.repositories, ∀ u ∈ r.declared, u.Resident := by
    simp only [hollow, memory, List.mem_toArray, List.mem_cons, List.not_mem_nil, or_false,
      forall_eq_or_imp, forall_eq]
    exact ⟨resident_of_memory rfl, resident_of_memory rfl, resident_of_memory rfl⟩
  exact ⟨hinMemory, hunits⟩

/-- Nothing can be read or had of what is requested, and the run returns; where a port is no number it
fails, because of that. -/
theorem tolerant_of_hollow :
    (∃ R w', resolve access ⟨[first, second], .slice⟩ [plain, rich, loose] hollow = .ok R w') ∧
    ∃ f w', resolve access ⟨[], .slice⟩ [unit crooked "a" [] []] astray = .error f w' ∧
      f.isMissing = false := by
  have hreq : ∀ u ∈ [plain, rich, loose], u.Resident := by
    simp only [List.mem_cons, List.not_mem_nil, or_false, forall_eq_or_imp, forall_eq]
    exact ⟨resident_of_memory rfl, resident_of_memory rfl, nofun⟩
  obtain ⟨w', h⟩ : ∃ w', resolve access ⟨[], .slice⟩ [unit crooked "a" [] []] astray =
      .error .numeral w' :=
    resolve_of_failureWithin? (n := 10) rfl
  obtain ⟨-, -, -, hreturns⟩ := @tolerant_of_slice ⟨[first, second], .slice⟩ [plain, rich, loose] rfl
  obtain ⟨-, hfails, -, -⟩ := @tolerant_of_slice ⟨[], .slice⟩ [unit crooked "a" [] []] rfl
  exact ⟨hreturns resident_hollow hreq, .numeral, w', h, hfails h⟩

end Resolution

end Provision
