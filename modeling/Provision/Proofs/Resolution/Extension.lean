import Provision.Proofs.Resolution.Consistency
import Provision.Proofs.Resolution.Correspondence
import Provision.Proofs.Workspace.Contents
import Provision.Proofs.Workspace.Steady

namespace Provision.Resolution

variable {σ : Type} {A : Access σ} {w₀ w w' v : σ} {S : Setting} {us vs : List Installable}

/-- A result is the beginning of another one. A requirement that failed in it fails in the other one as
well, or a unit there has what it asks for. -/
structure Result.ExtendedBy (R₁ R₂ : Result) : Prop where
  units : R₁.units.items <+: R₂.units.items
  bundles : R₁.bundles.items <+: R₂.bundles.items
  features : R₁.features.items <+: R₂.features.items
  failed : ∀ r ∈ R₁.failed, r ∈ R₂.failed ∨ Provided R₂.units.items r

/-- Repositories answer in one world as they do in another one, however far they are read. -/
def Indistinct (A : Access σ) (w v : σ) : Prop :=
  ∃ rel, A.Mirrored (fun _ => True) rel A ∧ rel w v

def Unchanging (A : Access σ) (w₀ : σ) : Prop :=
  ∀ q w, Reaches A w₀ w → answerOf (A.ask q w) = answerOf (A.ask q w₀)

theorem sameEnd_of_answerOf {α : Type} {rel : σ → σ → Prop} {e e' : EStateM.Result Failure σ α}
    (h : answerOf e' = answerOf e) (hend : rel (endWorld e) (endWorld e')) : SameEnd rel e' e := by
  cases e <;> cases e' <;> cases h <;> exact ⟨_, hend, rfl⟩

theorem Unchanging.indistinct (h : Unchanging A w₀) (hw : Reaches A w₀ w) (hv : Reaches A w₀ v) :
    Indistinct A w v := by
  refine ⟨fun w v => Reaches A w₀ w ∧ Reaches A w₀ v, ⟨fun q => ?_, fun _ _ _ => trivial, ?_⟩, hw, hv⟩
  · refine ⟨fun _ _ => trivial, fun w v _ ⟨hw, hv⟩ => ?_⟩
    exact sameEnd_of_answerOf ((h q v hv).trans (h q w hw).symm) ⟨reaches_ask hw q, reaches_ask hv q⟩
  · exact fun m w v ⟨hw, hv⟩ => ⟨hw.note m, hv.note m⟩

theorem Indistinct.resolve (h : Indistinct A w v) {R : Result}
    (hR : resolve A S us w = .ok R w') : ∃ v', resolve A S us v = .ok R v' := by
  obtain ⟨rel, hrel, hwv⟩ := h
  have hsame : SameEnd rel (Resolution.resolve A S us v) (Resolution.resolve A S us w) :=
    (alike_of_mirrored hrel S).resolve rfl (fun _ _ _ _ _ _ => mirrors_search hrel S _ _ _) hwv
  rw [hR] at hsame
  obtain ⟨v', -, hv'⟩ := hsame
  exact ⟨v', hv'⟩

namespace Result.ExtendedBy

theorem refl (R : Result) : R.ExtendedBy R :=
  ⟨List.prefix_refl _, List.prefix_refl _, List.prefix_refl _, fun _ => Or.inl⟩

theorem trans {R₁ R₂ R₃ : Result} (h₁ : R₁.ExtendedBy R₂) (h₂ : R₂.ExtendedBy R₃) :
    R₁.ExtendedBy R₃ := by
  refine ⟨h₁.units.trans h₂.units, h₁.bundles.trans h₂.bundles, h₁.features.trans h₂.features,
    fun r hr => ?_⟩
  obtain hr | hprovided := h₁.failed r hr
  · exact h₂.failed r hr
  · exact Or.inr (hprovided.mono h₂.units.subset)

end Result.ExtendedBy

theorem extendedBy_visited {p : Progress} {u : Installable} (hu : p.holds u = false) (c : Contents)
    (mode : IncludeMode) : (p.result mode).ExtendedBy ((p.visited u c).result mode) := by
  obtain ⟨hunits, hstate⟩ := Bool.or_eq_false_iff.mp hu
  refine ⟨Collection.items_prefix_add _ _, Collection.items_prefix_foldl _ _,
    Collection.items_prefix_foldl _ _, fun r hr => ?_⟩
  cases hur : u.satisfies r with
  | true =>
    have hmem : u ∈ (p.units.add u).items := by simp [Collection.items_add hunits]
    exact Or.inr ⟨u, hmem, hur⟩
  | false =>
    refine Or.inl (?_ : r ∈ (p.state.addUnit u).failed)
    rw [State.failed_addUnit hstate]
    exact List.mem_filter.mpr ⟨hr, by rw [hur]; rfl⟩

theorem extendedBy_addResolved {p : Progress} {r : Requirement} (hf : p.state.isFailed r = false)
    (mode : IncludeMode) :
    (p.result mode).ExtendedBy
      (Progress.result { p with state := p.state.addResolved r } mode) := by
  refine { Result.ExtendedBy.refl (p.result mode) with failed := fun q hq => Or.inl ?_ }
  change q ∈ (p.state.addResolved r).failed
  rwa [State.failed_addResolved_of_isFailed_eq_false hf]

theorem extendedBy_of_move {c d : Config} (h : Move A w₀ S c d) (mode : IncludeMode) :
    (c.progress.result mode).ExtendedBy (d.progress.result mode) := by
  cases h with
  | skipRoot | leave | skip | drop => exact .refl _
  | visitRoot hu => exact extendedBy_visited hu _ mode
  | fail =>
    exact { Result.ExtendedBy.refl _ with
      failed := fun _ hq => Or.inl (State.mem_failed_addFailed_of_mem _ hq) }
  | meet _ hf => exact extendedBy_addResolved hf mode
  | @visit us p u path r rs stack q c label _ hf _ hq =>
    have hq : Progress.holds { p with state := p.state.addResolved r } q = false := hq
    exact (extendedBy_addResolved hf mode).trans (extendedBy_visited hq c mode)

theorem extendedBy_of_moves {c d : Config} (h : Moves A w₀ S c d) (mode : IncludeMode) :
    (c.progress.result mode).ExtendedBy (d.progress.result mode) := by
  induction h with
  | refl => exact .refl _
  | tail _ h ih => exact ih.trans (extendedBy_of_move h mode)

theorem progress_of_moves {p : Progress} (hp : ∀ u ∈ vs, p.holds u) {d : Config}
    (h : Moves A w₀ S ⟨vs, p, []⟩ d) :
    d.progress = p ∧ d.stack = [] ∧ d.roots ⊆ vs := by
  induction h with
  | refl => exact ⟨rfl, rfl, List.Subset.refl _⟩
  | tail _ h ih =>
    obtain ⟨rfl, hstack, hroots⟩ := ih
    cases h with
    | skipRoot => exact ⟨rfl, rfl, (List.cons_subset.mp hroots).2⟩
    | visitRoot hu => exact absurd (hp _ (hroots List.mem_cons_self)) (Bool.eq_false_iff.mp hu)
    | leave | skip | drop | fail | meet | visit => cases hstack

theorem resolveAll_append (us vs : List Installable) (p : Progress) (w : σ) :
    resolveAll A S (us ++ vs) p w = (resolveAll A S us p w).andThen (resolveAll A S vs) := by
  induction us generalizing p w with
  | nil => rfl
  | cons u us ih =>
    rw [List.cons_append, resolveAll_cons, resolveAll_cons, Ending.andThen_assoc]
    exact congrArg _ (funext₂ ih)

theorem Ending.exists_of_andThen_ok {α β : Type} {e : Ending σ α} {k : α → σ → Ending σ β} {b : β}
    (h : e.andThen k = some (.ok b w')) : ∃ a v, e = some (.ok a v) ∧ k a v = some (.ok b w') := by
  obtain _ | ⟨a, v⟩ | ⟨f, v⟩ := e
  · cases h
  · exact ⟨a, v, rfl, h⟩
  · cases h

/-- A run for more units goes through a moment with which a run for the first of them ends. -/
theorem exists_of_resolve_append {R : Result} (h : resolve A S (us ++ vs) w = .ok R w') :
    ∃ p v q, resolve A S us w = .ok (p.result S.mode) (A.note (p.result S.mode).record v) ∧
      R = q.result S.mode ∧
      Moves A w S ⟨vs, p, []⟩ ⟨[], q, []⟩ := by
  obtain ⟨q, v', rfl, -, hall, -⟩ := passes_of_resolve h
  rw [resolveAll_append] at hall
  obtain ⟨p, v, hus, hvs⟩ := Ending.exists_of_andThen_ok hall
  have hfirst : Passes A S (.start us w) (.finished p v) := arrives_of_resolveAll hus
  have hreach : Reaches A w v := (moves_of_passes .start hfirst).1
  have hrest : Passes A S ⟨⟨vs, p, []⟩, v⟩ (.finished q v') := arrives_of_resolveAll hvs
  exact ⟨p, v, q, resolve_of_passes hfirst, rfl, (moves_of_passes hreach hrest).2⟩

/-- Where a run for some units and others returns, one for the first of them does. The longer run
extends its result, and by nothing if the others stand among its units. -/
theorem extendedBy_of_append (hw : Indistinct A w v) {R₂ : Result}
    (h : resolve A S (us ++ vs) w = .ok R₂ w') :
    ∃ R₁ v', resolve A S us v = .ok R₁ v' ∧ R₁.ExtendedBy R₂ ∧
      ((∀ u ∈ vs, ∃ q ∈ R₁.units.items, q.id = u.id ∧ q.version = u.version) → R₂ = R₁) := by
  obtain ⟨p, y, q, hR₁, rfl, hmoves⟩ := exists_of_resolve_append h
  obtain ⟨v', hv'⟩ := hw.resolve hR₁
  refine ⟨_, v', hv', extendedBy_of_moves hmoves S.mode, fun hheld => ?_⟩
  have hholds : ∀ u ∈ vs, p.holds u := fun u hu =>
    Bool.or_eq_true_iff.mpr (Or.inl ((Collection.has_iff p.units u).mpr (hheld u hu)))
  exact congrArg (Progress.result · S.mode) (progress_of_moves hholds hmoves).1

theorem unchanging_of_holds {w : Workspace} (h : ∀ r ∈ w.repositories, r.Holds r.declared) :
    Unchanging Operation.access w := by
  have hmemory : w.Resembles w := .refl_of_inMemory fun r hr =>
    ⟨(h r hr).inMemory, (h r hr).memo⟩
  intro q v hv
  have hresembles := Workspace.resembles_of_reaches hv hmemory
  cases q with
  | list s =>
    change answerOf (Operation.list s v) = answerOf (Operation.list s w)
    cases hr : w.repository? s with
    | none =>
      have hnone : v.repository? s = none := by
        simpa only [hr, Option.map_none, Option.map_eq_none_iff] using hresembles.core s
      rw [Operation.list_of_none hr, Operation.list_of_none hnone]
      rfl
    | some r =>
      have hw : w.Holds s r.declared := ⟨r, hr, h r (Array.mem_of_getElem? hr)⟩
      obtain ⟨w', hlist⟩ := list_of_holds hw
      obtain ⟨v', hlist'⟩ := list_of_holds (holds_of_reaches hv hw)
      rw [hlist, hlist']
      rfl
  | materialize u => exact Operation.materialize_of_reaches hv u
  | describe s =>
    change answerOf (Operation.describe s v) = answerOf (Operation.describe s w)
    rw [hresembles.describe, hmemory.describe]
    rfl

open Sample Operation in
/-- A run for a unit and a library, and one for the unit alone in the world that it leaves. The
requirement that fails there is answered by the library. -/
theorem extendedBy_of_append_apart :
    ∃ w', resolve access ⟨[first, second], .slice⟩ ([plain] ++ [library second]) apart =
        .ok ⟨.slice, ⟨[plain, library second]⟩, {}, {}, []⟩ w' ∧ Indistinct access apart w' ∧
      ∃ R₁ v', resolve access ⟨[first, second], .slice⟩ [plain] w' = .ok R₁ v' ∧
        R₁.ExtendedBy ⟨.slice, ⟨[plain, library second]⟩, {}, {}, []⟩ ∧
        ((∀ u ∈ [library second], ∃ q ∈ R₁.units.items, q.id = u.id ∧ q.version = u.version) →
          ⟨.slice, ⟨[plain, library second]⟩, {}, {}, []⟩ = R₁) := by
  obtain ⟨w', h⟩ : ∃ w', resolve access ⟨[first, second], .slice⟩ ([plain] ++ [library second]) apart =
      .ok ⟨.slice, ⟨[plain, library second]⟩, {}, {}, []⟩ w' :=
    resolve_of_resultWithin? (n := 10) rfl
  have hholds : ∀ r ∈ apart.repositories, r.Holds r.declared := by
    simp only [apart, List.mem_toArray, List.forall_mem_cons]
    refine ⟨⟨⟨_, rfl⟩, rfl, rfl, ?_⟩, ⟨⟨_, rfl⟩, rfl, rfl, ?_⟩, List.forall_mem_nil _⟩ <;> nofun
  have hreach : Reaches access apart w' := by
    obtain ⟨p, v, hR, rfl, -, hp⟩ := passes_of_resolve h
    exact (moves_of_passes .start hp).1.note _
  have hsame := (unchanging_of_holds hholds).indistinct .start hreach
  exact ⟨w', h, hsame, extendedBy_of_append hsame h⟩

end Provision.Resolution
