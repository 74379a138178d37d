import Provision.Proofs.Resolution.Passage
import Provision.Proofs.Resolution.Reach
import Provision.Proofs.Resolution.State

namespace Provision.Resolution

variable {σ α β : Type}

/-- The contents that a visit of a unit adds; missing ones are none where nothing missing ends a
run. -/
def Supplied (A : Access σ) (w₀ : σ) (S : Setting) (u : Installable) (c : Contents) : Prop :=
  ∃ w, Reaches A w₀ w ∧ ((∃ w', A.materialize u w = .ok c w') ∨
    (S.mode = .slice ∧ c = {} ∧ ∃ f w', A.materialize u w = .error f w' ∧ f.isMissing))

def Progress.visited (p : Progress) (u : Installable) (c : Contents) : Progress where
  state := p.state.addUnit u
  units := p.units.add u
  bundles := c.bundles.foldl Collection.add p.bundles
  features := c.features.foldl Collection.add p.features

/-- One move of a run from a world `w₀`. -/
inductive Move (A : Access σ) (w₀ : σ) (S : Setting) : Config → Config → Prop where
  | skipRoot {u us p} (hu : p.holds u) : Move A w₀ S ⟨u :: us, p, []⟩ ⟨us, p, []⟩
  | visitRoot {u us p c label} (hu : p.holds u = false) (hc : Supplied A w₀ S u c)
      (hl : Labelled A w₀ u label) :
      Move A w₀ S ⟨u :: us, p, []⟩ ⟨us, p.visited u c, [⟨u, label, u.requires⟩]⟩
  | leave {us p u path stack} : Move A w₀ S ⟨us, p, ⟨u, path, []⟩ :: stack⟩ ⟨us, p, stack⟩
  | skip {us p u path r rs stack} (h : p.state.isResolved r ∨ p.state.isFailed r) :
      Move A w₀ S ⟨us, p, ⟨u, path, r :: rs⟩ :: stack⟩ ⟨us, p, ⟨u, path, rs⟩ :: stack⟩
  | drop {us p u path r rs stack} (hr : p.state.isResolved r = false)
      (hf : p.state.isFailed r = false) (h : Found A w₀ S u r .dropped) :
      Move A w₀ S ⟨us, p, ⟨u, path, r :: rs⟩ :: stack⟩ ⟨us, p, ⟨u, path, rs⟩ :: stack⟩
  | fail {us p u path r rs stack} (hr : p.state.isResolved r = false)
      (hf : p.state.isFailed r = false) (h : Found A w₀ S u r .failed) :
      Move A w₀ S ⟨us, p, ⟨u, path, r :: rs⟩ :: stack⟩
        ⟨us, { p with state := p.state.addFailed r }, ⟨u, path, rs⟩ :: stack⟩
  | meet {us p u path r rs stack q} (hr : p.state.isResolved r = false)
      (hf : p.state.isFailed r = false) (h : Found A w₀ S u r (.provider q)) (hq : p.holds q) :
      Move A w₀ S ⟨us, p, ⟨u, path, r :: rs⟩ :: stack⟩
        ⟨us, { p with state := p.state.addResolved r }, ⟨u, path, rs⟩ :: stack⟩
  | visit {us p u path r rs stack q c label} (hr : p.state.isResolved r = false)
      (hf : p.state.isFailed r = false) (h : Found A w₀ S u r (.provider q))
      (hq : p.holds q = false) (hc : Supplied A w₀ S q c) (hl : Labelled A w₀ q label) :
      Move A w₀ S ⟨us, p, ⟨u, path, r :: rs⟩ :: stack⟩
        ⟨us, { p with state := p.state.addResolved r }.visited q c,
          ⟨q, path ++ " -> " ++ r.name ++ " -> " ++ label, q.requires⟩ :: ⟨u, path, rs⟩ :: stack⟩

abbrev Moves (A : Access σ) (w₀ : σ) (S : Setting) : Config → Config → Prop :=
  Relation.ReflTransGen (Move A w₀ S)

variable {A : Access σ} {w₀ : σ} {S : Setting}

theorem yields_addBundle (p : Progress) (b : Bundle) :
    Yields A w₀ (addBundle A p b) (· = { p with bundles := p.bundles.add b }) := by
  unfold addBundle
  split
  case isTrue h => exact yields_pure (by simp [Collection.add, h])
  case isFalse => exact yields_bind (yields_debug _) fun _ _ => yields_pure rfl

theorem yields_addFeature (p : Progress) (f : Feature) :
    Yields A w₀ (addFeature A p f) (· = { p with features := p.features.add f }) := by
  unfold addFeature
  split
  case isTrue h => exact yields_pure (by simp [Collection.add, h])
  case isFalse => exact yields_bind (yields_debug _) fun _ _ => yields_pure rfl

theorem foldl_addBundle (bs : List Bundle) (p : Progress) :
    bs.foldl (fun p b => { p with bundles := p.bundles.add b }) p =
      { p with bundles := bs.foldl Collection.add p.bundles } := by
  induction bs generalizing p with
  | nil => rfl
  | cons b bs ih => rw [List.foldl_cons, ih, List.foldl_cons]

theorem foldl_addFeature (fs : List Feature) (p : Progress) :
    fs.foldl (fun p f => { p with features := p.features.add f }) p =
      { p with features := fs.foldl Collection.add p.features } := by
  induction fs generalizing p with
  | nil => rfl
  | cons f fs ih => rw [List.foldl_cons, ih, List.foldl_cons]

theorem yields_contents (u : Installable) :
    Yields A w₀ (contents A S u) (Supplied A w₀ S u) := by
  intro w hw c w' h
  have hv := hw.materialize u
  unfold contents at h
  cases hm : A.materialize u w with
  | ok d v =>
    rw [hm] at h hv
    cases h
    exact ⟨hv, w, hw, Or.inl ⟨_, hm⟩⟩
  | error f v =>
    rw [hm] at h hv
    dsimp only at h
    split at h
    case isTrue hf =>
      cases h
      obtain ⟨hf, hS⟩ : f.isMissing = true ∧ S.mode = .slice := by simpa using hf
      exact ⟨hv.note _, w, hw, Or.inr ⟨hS, rfl, f, v, hm, hf⟩⟩
    case isFalse => cases h

theorem yields_visit (u : Installable) (p : Progress) :
    Yields A w₀ (visit A S u p) fun p' => ∃ c, Supplied A w₀ S u c ∧ p' = p.visited u c := by
  refine yields_bind (yields_forM _ fun _ => yields_debug _) fun _ _ => ?_
  refine yields_bind (yields_log _ _) fun _ _ => yields_bind (yields_contents u) fun c hc => ?_
  refine yields_bind (yields_foldlM yields_addBundle _ _) ?_
  rintro _ rfl
  refine (yields_foldlM yields_addFeature _ _).mono ?_
  rintro _ rfl
  rw [foldl_addBundle, foldl_addFeature]
  exact ⟨c, hc, rfl⟩

theorem yields_enter (u : Installable) (path : String) (p : Progress) (stack : List Frame) :
    Yields A w₀ (enter A S u path p stack) fun (p', stack') =>
      (p.holds u ∧ p' = p ∧ stack' = stack) ∨
      (p.holds u = false ∧ ∃ c, Supplied A w₀ S u c ∧ p' = p.visited u c ∧
        stack' = ⟨u, path, u.requires⟩ :: stack) := by
  unfold enter
  split
  case isTrue hu =>
    exact yields_bind (yields_debug _) fun _ _ => yields_pure (Or.inl ⟨hu, rfl, rfl⟩)
  case isFalse hu =>
    refine yields_bind (yields_visit u p) ?_
    rintro _ ⟨c, hc, rfl⟩
    exact yields_pure (Or.inr ⟨Bool.eq_false_iff.mpr hu, c, hc, rfl, rfl⟩)

theorem yields_step (p : Progress) (frame : Frame) (stack : List Frame) :
    Yields A w₀ (step A S p frame stack) fun (p', stack') =>
      ∀ us, Move A w₀ S ⟨us, p, frame :: stack⟩ ⟨us, p', stack'⟩ := by
  obtain ⟨u, path, rs⟩ := frame
  cases rs with
  | nil => exact yields_pure fun us => .leave
  | cons r rs =>
    change Yields A w₀ (settle A S r ⟨u, path, r :: rs⟩ p (⟨u, path, rs⟩ :: stack)) _
    unfold settle
    split
    case isTrue hr =>
      exact yields_bind (yields_debug _) fun _ _ => yields_pure fun us => .skip (.inl hr)
    case isFalse hr =>
      rw [Bool.not_eq_true] at hr
      split
      case isTrue hf =>
        exact yields_bind (yields_debug _) fun _ _ => yields_pure fun us => .skip (.inr hf)
      case isFalse hf =>
        rw [Bool.not_eq_true] at hf
        refine yields_bind (yields_debug _) fun _ _ => yields_bind (yields_search S r u path) ?_
        rintro (q | _ | _) h
        · refine yields_bind (yields_label q) fun label hl => (yields_enter _ _ _ _).mono ?_
          rintro ⟨p', stack'⟩ (⟨hq, rfl, rfl⟩ | ⟨hq, c, hc, rfl, rfl⟩) us
          · exact .meet hr hf h hq
          · exact .visit hr hf h hq hc hl
        · exact yields_pure fun us => .drop hr hf h
        · exact yields_pure fun us => .fail hr hf h

theorem Progress.units_visited {p : Progress} {u : Installable} (hu : p.holds u = false)
    (c : Contents) : (p.visited u c).state.units = p.state.units ++ [u] :=
  State.units_addUnit (Bool.or_eq_false_iff.mp hu).2

/-- A move visits no unit, or a requested one, or one that was found for a requirement of a unit on
the way. -/
theorem units_of_move {c d : Config} (h : Move A w₀ S c d) :
    d.progress.state.units = c.progress.state.units ∨
      ∃ q, d.progress.state.units = c.progress.state.units ++ [q] ∧
        (q ∈ c.roots ∨
          ∃ f ∈ c.stack, ∃ r ∈ f.pending, Found A w₀ S f.unit r (.provider q)) := by
  cases h with
  | skipRoot | leave | skip | drop | meet => exact Or.inl rfl
  | fail => exact Or.inl (State.units_addFailed _ _)
  | visitRoot hu => exact Or.inr ⟨_, Progress.units_visited hu _, Or.inl List.mem_cons_self⟩
  | visit _ _ h hq =>
    refine Or.inr ⟨_, State.units_addUnit (Bool.or_eq_false_iff.mp hq).2, Or.inr ?_⟩
    exact ⟨_, List.mem_cons_self, _, List.mem_cons_self, h⟩

theorem roots_subset_of_move {c d : Config} (h : Move A w₀ S c d) : d.roots ⊆ c.roots := by
  cases h with
  | skipRoot | visitRoot => exact List.subset_cons_self _ _
  | leave | skip | drop | fail | meet | visit => exact List.Subset.refl _

/-- After a move the unit of a frame was on the way before, or it was requested, or it was found for a
requirement of a unit on the way. -/
theorem unit_of_move {c d : Config} (h : Move A w₀ S c d) {f : Frame} (hf : f ∈ d.stack) :
    (∃ g ∈ c.stack, g.unit = f.unit) ∨ f.unit ∈ c.roots ∨
      ∃ g ∈ c.stack, ∃ r ∈ g.pending, Found A w₀ S g.unit r (.provider f.unit) := by
  cases h with
  | skipRoot => cases hf
  | visitRoot =>
    obtain rfl := List.mem_singleton.mp hf
    exact Or.inr (Or.inl List.mem_cons_self)
  | leave => exact Or.inl ⟨f, List.mem_cons_of_mem _ hf, rfl⟩
  | skip | drop | fail | meet =>
    obtain rfl | hf := List.mem_cons.mp hf
    · exact Or.inl ⟨_, List.mem_cons_self, rfl⟩
    · exact Or.inl ⟨f, List.mem_cons_of_mem _ hf, rfl⟩
  | visit _ _ h =>
    obtain rfl | hf := List.mem_cons.mp hf
    · exact Or.inr (Or.inr ⟨_, List.mem_cons_self, _, List.mem_cons_self, h⟩)
    · obtain rfl | hf := List.mem_cons.mp hf
      · exact Or.inl ⟨_, List.mem_cons_self, rfl⟩
      · exact Or.inl ⟨f, List.mem_cons_of_mem _ hf, rfl⟩

theorem units_prefix_of_move {c d : Config} (h : Move A w₀ S c d) :
    c.progress.state.units <+: d.progress.state.units := by
  obtain h | ⟨q, h, -⟩ := units_of_move h
  · exact h ▸ List.prefix_refl _
  · exact h ▸ List.prefix_append _ _

theorem units_prefix_of_moves {c d : Config} (h : Moves A w₀ S c d) :
    c.progress.state.units <+: d.progress.state.units := by
  induction h with
  | refl => exact List.prefix_refl _
  | tail _ h ih => exact ih.trans (units_prefix_of_move h)

theorem yields_start (u : Installable) (p : Progress) :
    Yields A w₀ (start A S u p) fun (p', stack) =>
      ∀ us, Move A w₀ S ⟨u :: us, p, []⟩ ⟨us, p', stack⟩ := by
  refine yields_bind (yields_label u) fun label hl => (yields_enter _ _ _ _).mono ?_
  rintro ⟨q, stack⟩ (⟨hu, rfl, rfl⟩ | ⟨hu, c, hc, rfl, rfl⟩) us
  · exact .skipRoot hu
  · exact .visitRoot hu hc hl

theorem move_of_next {m n : Moment σ} (hm : Reaches A w₀ m.world) (h : Next A S m n) :
    Reaches A w₀ n.world ∧ Move A w₀ S m.toConfig n.toConfig := by
  cases h with
  | root h =>
    obtain ⟨hv, hmove⟩ := yields_start _ _ hm h
    exact ⟨hv, hmove _⟩
  | step h =>
    obtain ⟨hv, hmove⟩ := yields_step _ _ _ hm h
    exact ⟨hv, hmove _⟩

theorem moves_of_passes {m n : Moment σ} (hm : Reaches A w₀ m.world) (h : Passes A S m n) :
    Reaches A w₀ n.world ∧ Moves A w₀ S m.toConfig n.toConfig := by
  induction h with
  | refl => exact ⟨hm, .refl⟩
  | tail _ h ih =>
    obtain ⟨hv, hmove⟩ := move_of_next ih.1 h
    exact ⟨hv, ih.2.tail hmove⟩

/-- Every result is reached by moves that start with nothing visited. -/
theorem moves_of_resolve {requested : List Installable} {R : Result} {w' : σ}
    (h : resolve A S requested w₀ = .ok R w') :
    ∃ p, R = p.result S.mode ∧ Moves A w₀ S ⟨requested, {}, []⟩ ⟨[], p, []⟩ := by
  obtain ⟨p, v, rfl, -, -, hp⟩ := passes_of_resolve h
  exact ⟨p, rfl, (moves_of_passes .start hp).2⟩

end Provision.Resolution
