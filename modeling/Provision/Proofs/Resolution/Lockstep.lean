import Provision.Proofs.Resolution.Consistency

namespace Provision.Resolution

variable {σ α β : Type}

def Follows (A : Access σ) (w₀ : σ) (x y : EStateM Failure σ α) : Prop :=
  ∀ ⦃w⦄, Reaches A w₀ w → ∀ ⦃a w'⦄, x w = .ok a w' → y w = .ok a w'

/-- What a run does besides its searches, another one does as well. -/
structure Lockstep (A : Access σ) (S : Setting) (B : Access σ) (T : Setting) (w₀ : σ) : Prop where
  note : B.note = A.note
  label : ∀ u, Follows A w₀ (A.label u) (B.label u)
  contents : ∀ u, Follows A w₀ (contents A S u) (contents B T u)

variable {A B : Access σ} {S T : Setting} {w₀ : σ} {requested : List Installable}

theorem follows_refl (x : EStateM Failure σ α) : Follows A w₀ x x :=
  fun _ _ _ _ h => h

theorem follows_bind {x y : EStateM Failure σ α} {g h : α → EStateM Failure σ β} {Q : α → Prop}
    (hx : Follows A w₀ x y) (hy : Yields A w₀ x Q) (hg : ∀ a, Follows A w₀ (g a) (h a)) :
    Follows A w₀ (x >>= g) (y >>= h) := by
  intro w hw b w' hb
  obtain ⟨a, v, hxw, hb⟩ := exists_of_bind_ok hb
  rw [bind_of_ok (hx hw hxw)]
  exact hg a (hy hw hxw).1 hb

namespace Lockstep

section Steps

variable (h : Lockstep A S B T w₀)

include h

theorem log (level : Log.Level) (message : String) : B.log level message = A.log level message := by
  funext w
  rw [Access.log, Access.log, h.note]

theorem debug (message : String) : B.debug message = A.debug message :=
  h.log _ _

theorem addBundle : addBundle B = addBundle A := by
  funext p b
  unfold Resolution.addBundle
  rw [h.debug]

theorem addFeature : addFeature B = addFeature A := by
  funext p f
  unfold Resolution.addFeature
  rw [h.debug]

theorem visit (u : Installable) (p : Progress) :
    Follows A w₀ (visit A S u p) (visit B T u p) := by
  have hpromoted : (fun r : Requirement => B.debug ("Promoting " ++ r.text ++ ", provided by " ++
      u.text)) = fun r => A.debug ("Promoting " ++ r.text ++ ", provided by " ++ u.text) := by
    funext r
    exact h.debug _
  unfold Resolution.visit addContents
  rw [hpromoted, h.log, h.addBundle, h.addFeature]
  refine follows_bind (follows_refl _) (yields_forM _ fun _ => yields_debug _) fun _ => ?_
  refine follows_bind (follows_refl _) (yields_log _ _) fun _ => ?_
  exact follows_bind (h.contents u) (yields_contents u) fun c => follows_refl _

theorem enter (u : Installable) (path : String) (p : Progress) (stack : List Frame) :
    Follows A w₀ (enter A S u path p stack) (enter B T u path p stack) := by
  unfold Resolution.enter
  rw [h.debug]
  split
  case isTrue => exact follows_refl _
  case isFalse => exact follows_bind (h.visit u p) (yields_visit u p) fun _ => follows_refl _

theorem start (u : Installable) (p : Progress) :
    Follows A w₀ (start A S u p) (start B T u p) :=
  follows_bind (h.label u) (yields_label u) fun _ => h.enter u _ p []

/-- A step is the same where the searches for the pending requirements of the unit on top are. -/
theorem step (p : Progress) (frame : Frame) (stack : List Frame)
    (hsearch : ∀ r ∈ frame.pending,
      Follows A w₀ (search A S r frame.unit frame.path) (search B T r frame.unit frame.path)) :
    Follows A w₀ (step A S p frame stack) (step B T p frame stack) := by
  obtain ⟨u, path, rs⟩ := frame
  cases rs with
  | nil => exact follows_refl _
  | cons r rs =>
    change Follows A w₀ (settle A S r ⟨u, path, r :: rs⟩ p (⟨u, path, rs⟩ :: stack))
      (settle B T r ⟨u, path, r :: rs⟩ p (⟨u, path, rs⟩ :: stack))
    unfold settle
    simp only [h.debug]
    split
    case isTrue => exact follows_refl _
    case isFalse =>
      split
      case isTrue => exact follows_refl _
      case isFalse =>
        refine follows_bind (follows_refl _) (yields_debug _) fun _ =>
          follows_bind (hsearch r List.mem_cons_self) (yields_search S r u path) ?_
        rintro (q | _ | _)
        · exact follows_bind (h.label q) (yields_label q) fun _ => h.enter q _ _ _
        · exact follows_refl _
        · exact follows_refl _

end Steps

variable {w w' : σ}

theorem next (h : Lockstep A S B T w₀) {m n : Moment σ} (hm : Reaches A w₀ m.world)
    (hsearch : ∀ f ∈ m.stack, ∀ r ∈ f.pending,
      Follows A w₀ (search A S r f.unit f.path) (search B T r f.unit f.path))
    (hn : Next A S m n) : Next B T m n := by
  cases hn with
  | root hs => exact .root (h.start _ _ hm hs)
  | step hs => exact .step (h.step _ _ _ (hsearch _ List.mem_cons_self) hm hs)

theorem passes (h : Lockstep A S B T w)
    (hsearch : ∀ m, Passes A S (.start requested w) m → ∀ f ∈ m.stack, ∀ r ∈ f.pending,
      Follows A w (search A S r f.unit f.path) (search B T r f.unit f.path))
    {m : Moment σ} (hm : Passes A S (.start requested w) m) :
    Passes B T (.start requested w) m := by
  induction hm with
  | refl => exact .refl
  | tail hm hn ih =>
    have hreach := (moves_of_passes .start hm).1
    exact ih.tail (h.next hreach (hsearch _ hm) hn)

/-- A run returns as another one does where they are alike for the units of its result. Only the last
message, which tells of the mode, is another. -/
theorem resolve (h : Lockstep A S B T w) {R : Result} (hR : resolve A S requested w = .ok R w')
    (hsearch : ∀ u ∈ R.units.items, ∀ r ∈ u.requires, ∀ path,
      Follows A w (search A S r u path) (search B T r u path)) :
    ∃ v, w' = A.note R.record v ∧ resolve B T requested w =
      .ok { R with mode := T.mode } (A.note (Result.record { R with mode := T.mode }) v) := by
  obtain ⟨p, v, rfl, rfl, -, hp⟩ := passes_of_resolve hR
  refine ⟨v, rfl, h.note ▸ resolve_of_passes (h.passes ?_ hp)⟩
  intro m hm f hf r hr
  obtain ⟨hunit, hpending⟩ := (sound_of_passes hm).attended.entered f hf
  exact hsearch f.unit ((units_prefix_of_resolve hR hm).subset hunit) r (hpending.subset hr) f.path

end Lockstep

/-- A unit whose own repository always has something for a requirement finds it there in any mode. -/
theorem search_of_offering {w : σ} (hw : Reaches A w₀ w) {u : Installable} {s : Source}
    (hu : u.owner = some s) {r : Requirement} (hr : Offering A w₀ s r) :
    ∃ q v, ∀ S path, search A S r u path w = .ok (.provider q) v := by
  obtain ⟨units, v, hlist, q, hq, hqr⟩ := hr w hw
  cases hfind : units.find? (·.satisfies r) with
  | none => exact absurd hqr (List.find?_eq_none.mp hfind q hq)
  | some q =>
    have hprobe : A.probe s r w = .ok (.found q) v := by
      simp only [Access.probe, hlist, hfind]
    refine ⟨q, v, fun S path => ?_⟩
    rw [search_of_owner hu]
    exact bind_of_ok hprobe

theorem follows_contents_of_full (hS : S.mode = .full) (T : Setting) (u : Installable) :
    Follows A w₀ (contents A S u) (contents A T u) := by
  intro w _ c w' h
  unfold contents at h ⊢
  cases hm : A.materialize u w with
  | ok d v =>
    rw [hm] at h
    exact h
  | error f v =>
    rw [hm] at h
    simp [hS] at h

theorem lockstep_of_full (hS : S.mode = .full) (T : Setting) : Lockstep A S A T w₀ where
  note := rfl
  label _ := follows_refl _
  contents := follows_contents_of_full hS T

/-- A run in slice mode returns what one in full mode returns if the own repositories of the units of
the result have something for all that these require. -/
theorem slice_of_full {w w' : σ} {R : Result} (hS : S.mode = .full)
    (h : resolve A S requested w = .ok R w')
    (hown : ∀ u ∈ R.units.items, ∃ s, u.owner = some s ∧ ∀ r ∈ u.requires, Offering A w s r) :
    ∃ v, resolve A { S with mode := .slice } requested w =
      .ok ⟨.slice, R.units, R.bundles, R.features, []⟩ v := by
  obtain ⟨v, -, hslice⟩ := (lockstep_of_full hS { S with mode := .slice }).resolve h <| by
    intro u hu r hr path x hx o x' ho
    obtain ⟨s, hs, hoff⟩ := hown u hu
    obtain ⟨q, y, hq⟩ := search_of_offering hx hs (hoff r hr)
    rw [hq] at ho ⊢
    exact ho
  have hfailed : R.failed = [] := failed_of_full hS h
  exact ⟨_, hfailed ▸ hslice⟩

namespace Sample

def whole : Workspace where
  repositories := #[memory "first" [plain, library first]]

end Sample

open Sample Operation in
theorem slice_of_full_whole :
    ∃ R w', resolve access ⟨[first], .full⟩ [plain] whole = .ok R w' ∧
      (∀ u ∈ R.units.items, ∃ s, u.owner = some s ∧
        ∀ r ∈ u.requires, Offering access whole s r) ∧
      ∃ v, resolve access ⟨[first], .slice⟩ [plain] whole =
        .ok ⟨.slice, R.units, R.bundles, R.features, []⟩ v := by
  obtain ⟨w', h⟩ : ∃ w', resolve access ⟨[first], .full⟩ [plain] whole =
      .ok ⟨.full, ⟨[plain, library first]⟩, {}, {}, []⟩ w' :=
    resolve_of_resultWithin? (n := 10) rfl
  have hown : ∀ u ∈ [plain, library first], ∃ s, u.owner = some s ∧
      ∀ r ∈ u.requires, Offering access whole s r := by
    refine List.forall_mem_cons.mpr ⟨⟨first, rfl, ?_⟩, List.forall_mem_singleton.mpr ?_⟩
    · have hholds : whole.Holds first [plain, library first] :=
        ⟨_, rfl, ⟨_, rfl⟩, rfl, rfl, fun _ h => by cases h⟩
      have hprovided : Provided [plain, library first] (asks "p") := by decide +kernel
      exact List.forall_mem_singleton.mpr (offering_of_holds hholds hprovided)
    · exact ⟨first, rfl, List.forall_mem_nil _⟩
  exact ⟨_, w', h, hown, slice_of_full rfl h hown⟩

end Provision.Resolution
