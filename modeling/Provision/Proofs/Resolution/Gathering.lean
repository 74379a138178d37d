import Provision.Proofs.Resolution.Breadcrumb
import Provision.Proofs.Resolution.Lockstep
import Provision.Proofs.Resolution.Supplies
import Provision.Proofs.Workspace.Contents

namespace Provision.Resolution

variable {σ : Type} {A : Access σ} {S : Setting} {requested : List Installable} {w w' w₀ : σ}
  {R : Result}

def given : Except Failure Contents → Contents
  | .ok c => c
  | .error _ => {}

/-- The contents of a unit; none where they are missing, which is noted. -/
def Access.excuse (A : Access σ) (u : Installable) : EStateM Failure σ Contents := fun w =>
  match A.materialize u w with
  | .ok c w => .ok c w
  | .error f w =>
    if f.isMissing then
      .ok {} (A.note ⟨.warning, "Skipping artifacts of " ++ u.text ++ ": " ++ f.message, []⟩ w)
    else .error f w

/-- The same repositories, but the units whose contents are missing consist of nothing. -/
def Access.lenient (A : Access σ) : Access σ := A.supplying A.excuse

structure Progress.Gathers (A : Access σ) (w₀ : σ) (S : Setting) (contents : Installable → Contents)
    (p : Progress) : Prop where
  supplied : ∀ u ∈ p.state.units, Supplied A w₀ S u (contents u)
  bundles : p.bundles =
    (p.state.units.flatMap fun u => (contents u).bundles).foldl Collection.add {}
  features : p.features =
    (p.state.units.flatMap fun u => (contents u).features).foldl Collection.add {}

variable {contents : Installable → Contents}

theorem Progress.Gathers.of_units {p : Progress} (h : p.Gathers A w₀ S contents) {s : State}
    (hs : s.units = p.state.units) : Gathers A w₀ S contents { p with state := s } := by
  refine ⟨?_, ?_, ?_⟩
  · simpa only [hs] using h.supplied
  · simpa only [hs] using h.bundles
  · simpa only [hs] using h.features

theorem Progress.Gathers.visited {p : Progress} (h : p.Gathers A w₀ S contents) {u : Installable}
    (hu : p.holds u = false) (hs : Supplied A w₀ S u (contents u)) :
    (p.visited u (contents u)).Gathers A w₀ S contents := by
  have hunits := Progress.units_visited hu (contents u)
  refine ⟨?_, ?_, ?_⟩
  · rw [hunits]
    exact List.forall_mem_append.mpr ⟨h.supplied, List.forall_mem_singleton.mpr hs⟩
  · rw [hunits, List.flatMap_append, List.flatMap_singleton, List.foldl_append, ← h.bundles]
    rfl
  · rw [hunits, List.flatMap_append, List.flatMap_singleton, List.foldl_append, ← h.features]
    rfl

/-- Where a unit is supplied with the same contents at any time, these are what a run gathers. -/
theorem gathers_of_moves (hc : ∀ u c, Supplied A w₀ S u c → c = contents u) {d : Config}
    (h : Moves A w₀ S ⟨requested, {}, []⟩ d) : d.progress.Gathers A w₀ S contents := by
  induction h with
  | refl => exact ⟨List.forall_mem_nil _, rfl, rfl⟩
  | tail _ hm ih =>
    cases hm with
    | skipRoot | leave | skip | drop => exact ih
    | meet => exact ih.of_units rfl
    | fail => exact ih.of_units (State.units_addFailed _ _)
    | visitRoot hu hs =>
      obtain rfl := hc _ _ hs
      exact ih.visited hu hs
    | @visit us p u path r rs stack q c label _ _ _ hq hs =>
      obtain rfl := hc _ _ hs
      exact (ih.of_units (s := p.state.addResolved r) rfl).visited hq hs

theorem lockstep_lenient (A : Access σ) (S : Setting) (w₀ : σ) : Lockstep A S A.lenient S w₀ where
  note := rfl
  label _ := follows_refl _
  contents u := by
    intro w _ c w' h
    change Resolution.contents (A.supplying A.excuse) S u w = .ok c w'
    unfold Resolution.contents at h ⊢
    simp only [Access.supplying, Access.excuse]
    cases hm : A.materialize u w with
    | ok d v =>
      rw [hm] at h
      exact h
    | error f v =>
      rw [hm] at h
      dsimp only at h ⊢
      split at h
      case isTrue hf =>
        rw [if_pos (Bool.and_eq_true_iff.mp hf).1]
        exact h
      case isFalse => cases h

theorem mode_of_resolve (h : resolve A S requested w = .ok R w') : R.mode = S.mode := by
  obtain ⟨p, v, rfl, -⟩ := passes_of_resolve h
  rfl

theorem resolve_lenient (h : resolve A S requested w = .ok R w') :
    resolve A.lenient S requested w = .ok R w' := by
  obtain ⟨v, rfl, hlenient⟩ := (lockstep_lenient A S w).resolve h fun u _ r _ path => by
    have hsearch : search A.lenient S r u path = search A S r u path :=
      search_supplying A.excuse S r u path
    rw [hsearch]
    exact follows_refl _
  rwa [← mode_of_resolve h] at hlenient

open Operation

/-- What a unit of a workspace is supplied with does not depend on when it is visited. -/
theorem answer_of_supplied {w : Workspace} {u : Installable} {c : Contents}
    (h : Supplied access w S u c) : answerOf (materialize u w) = .ok c ∨
      (S.mode = .slice ∧ c = {} ∧ ∃ f, answerOf (materialize u w) = .error f ∧ f.isMissing) := by
  obtain ⟨v, hv, ⟨v', hok⟩ | ⟨hS, hc, f, v', herror, hf⟩⟩ := h
  · have hanswer : answerOf (materialize u v) = .ok c := congrArg answerOf hok
    exact Or.inl ((materialize_of_reaches hv u).symm.trans hanswer)
  · have hanswer : answerOf (materialize u v) = .error f := congrArg answerOf herror
    exact Or.inr ⟨hS, hc, f, (materialize_of_reaches hv u).symm.trans hanswer, hf⟩

theorem eq_given_of_supplied {w : Workspace} {u : Installable} {c : Contents}
    (h : Supplied access w S u c) : c = given (answerOf (materialize u w)) := by
  obtain hanswer | ⟨-, rfl, f, hanswer, -⟩ := answer_of_supplied h <;> rw [hanswer] <;> rfl

/-- All artifacts of a unit are located; they are its contents in the order of their declaration. -/
def Furnished (w : Workspace) (u : Installable) (c : Contents) : Prop :=
  lacksContent w u = false ∧ ∃ location, (∀ a ∈ u.artifacts, locate w u a = .ok (location a)) ∧
    c = .located location u.artifacts

/-- The contents of a unit are missing: its repository has none, or one of its artifacts cannot be
located. -/
def Unfurnished (w : Workspace) (u : Installable) (f : Failure) : Prop :=
  f.isMissing ∧ (lacksContent w u ∨ ∃ a ∈ u.artifacts, locate w u a = .error f)

theorem furnished_or_unfurnished_of_supplied {w : Workspace} {u : Installable} {c : Contents}
    (h : Supplied access w S u c) :
    (∃ c, answerOf (materialize u w) = .ok c ∧ Furnished w u c) ∨
      (S.mode = .slice ∧ ∃ f, answerOf (materialize u w) = .error f ∧ Unfurnished w u f) := by
  obtain hanswer | ⟨hS, -, f, hanswer, hf⟩ := answer_of_supplied h
  · exact Or.inl ⟨c, hanswer, located_of_materialize hanswer⟩
  · exact Or.inr ⟨hS, f, hanswer, hf, unlocated_of_materialize hanswer⟩

/-- A result has the bundles and features that its units consist of, in the order of the units and of
their declaration, of each id and version the first. Each unit is asked once for what it consists of;
where this is missing it has nothing, as if it had no artifacts, and that is in slice mode. -/
theorem gathered_of_resolve {w w' : Workspace} (h : resolve access S requested w = .ok R w') :
    drawn (calls access S requested w) = R.units.items ∧
    (R.units.items.map fun u => (u.id, u.version)).Nodup ∧
    R.bundles.items = Collection.firsts
      (R.units.items.flatMap fun u => (given (answerOf (materialize u w))).bundles) ∧
    R.features.items = Collection.firsts
      (R.units.items.flatMap fun u => (given (answerOf (materialize u w))).features) ∧
    (∀ u ∈ R.units.items, (∃ c, answerOf (materialize u w) = .ok c ∧ Furnished w u c) ∨
      (S.mode = .slice ∧ ∃ f, answerOf (materialize u w) = .error f ∧ Unfurnished w u f)) ∧
    resolve access.lenient S requested w = .ok R w' := by
  have hdrawn := drawn_calls h
  have hlenient := resolve_lenient h
  obtain ⟨p, v, rfl, -, -, hp⟩ := passes_of_resolve h
  obtain ⟨-, hm⟩ := moves_of_passes .start hp
  have hvisited : p.units.items = p.state.units := visited_of_passes hp
  have hgathers : p.Gathers access w S fun u => given (answerOf (materialize u w)) :=
    gathers_of_moves (fun _ _ => eq_given_of_supplied) hm
  refine ⟨hdrawn, nodup_of_moves hm, ?_, ?_, fun u hu => ?_, hlenient⟩
  · change p.bundles.items = Collection.firsts (p.units.items.flatMap _)
    rw [hvisited, hgathers.bundles, Collection.foldl_add]
  · change p.features.items = Collection.firsts (p.units.items.flatMap _)
    rw [hvisited, hgathers.features, Collection.foldl_add]
  · have hunit : u ∈ p.state.units := hvisited ▸ hu
    exact furnished_or_unfurnished_of_supplied (hgathers.supplied u hunit)

namespace Sample

def depot : Source := ⟨.folder "/depot", 0⟩

def jar (id path : String) : Artifact :=
  { classifier := .bundle, id := id, version := one, path := path }

def front : Installable :=
  { unit depot "front" [needs "back"] [] with
    artifacts := [jar "x" "x.jar", ⟨.feature, "f", one, "f.jar", .bool false, .bool false⟩] }

def back : Installable :=
  { unit depot "back" [] [] with artifacts := [jar "y" "y.jar", jar "z" "z.jar"] }

def copy : Installable :=
  { unit depot "copy" [] [] with artifacts := [jar "x" "copy.jar", jar "y" "copy.jar"] }

def stock : Workspace where
  files :=
    { entries := [(["depot"], .folder), (["depot", "x.jar"], .file ⟨#[]⟩),
        (["depot", "f.jar"], .file ⟨#[]⟩), (["depot", "y.jar"], .file ⟨#[]⟩),
        (["depot", "copy.jar"], .file ⟨#[]⟩)] }
  repositories := #[{ identity := depot.identity, memo := some [front, back, copy] }]

end Sample

open Sample in
/-- A bundle that is there is left out with one that is not, so its copy in a later unit is in the
result; the copy of a bundle that is not left out gives way to it. -/
theorem gathered_of_stock :
    ∃ R w', resolve access ⟨[depot], .slice⟩ [front, copy] stock = .ok R w' ∧
      R.bundles.items.map Bundle.location = ["/depot/x.jar", "/depot/copy.jar"] ∧
      drawn (calls access ⟨[depot], .slice⟩ [front, copy] stock) = R.units.items ∧
      (R.units.items.map fun u => (u.id, u.version)).Nodup ∧
      R.bundles.items = Collection.firsts
        (R.units.items.flatMap fun u => (given (answerOf (materialize u stock))).bundles) ∧
      R.features.items = Collection.firsts
        (R.units.items.flatMap fun u => (given (answerOf (materialize u stock))).features) ∧
      (∀ u ∈ R.units.items,
        (∃ c, answerOf (materialize u stock) = .ok c ∧ Furnished stock u c) ∨
        (IncludeMode.slice = .slice ∧
          ∃ f, answerOf (materialize u stock) = .error f ∧ Unfurnished stock u f)) ∧
      resolve access.lenient ⟨[depot], .slice⟩ [front, copy] stock = .ok R w' := by
  have hrun : (resultWithin? access ⟨[depot], .slice⟩ 10 [front, copy] stock).map
      (fun R => R.bundles.items.map Bundle.location) =
        some ["/depot/x.jar", "/depot/copy.jar"] := by
    decide +kernel
  obtain ⟨R, hR, hbundles⟩ := Option.map_eq_some_iff.mp hrun
  obtain ⟨w', h⟩ := resolve_of_resultWithin? hR
  exact ⟨R, w', h, hbundles, gathered_of_resolve h⟩

end Provision.Resolution
