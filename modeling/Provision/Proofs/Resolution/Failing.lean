import Provision.Proofs.Resolution.Moves

namespace Provision.Resolution

variable {σ α β : Type}

def Throws (A : Access σ) (w₀ : σ) (x : EStateM Failure σ α) (E : Failure → Prop) : Prop :=
  ∀ ⦃w⦄, Reaches A w₀ w → ∀ ⦃f w'⦄, x w = .error f w' → E f

/-- A failure of the repositories that is not passed over, where none but certain units are visited. -/
inductive Broken (A : Access σ) (w₀ : σ) (S : Setting) (U : Installable → Prop) : Failure → Prop where
  | list {w s f w'} (hw : Reaches A w₀ w) (h : A.list s w = .error f w')
      (hf : f.isMissing = false) : Broken A w₀ S U f
  | materialize {w u f w'} (hw : Reaches A w₀ w) (hu : U u) (h : A.materialize u w = .error f w')
      (hf : S.mode = .slice → f.isMissing = false) : Broken A w₀ S U f
  | describe {w s f w'} (hw : Reaches A w₀ w) (h : A.describe s w = .error f w') : Broken A w₀ S U f

/-- Nothing was found in any of several repositories for a mandatory requirement in full mode. -/
def Unmet (A : Access σ) (w₀ : σ) (S : Setting) (r : Requirement) (path : String)
    (ss : List Source) (f : Failure) : Prop :=
  f = .unresolved path r ∧ S.mode = .full ∧ r.optional = false ∧ ∀ s ∈ ss, Lacking A w₀ s r

def Config.Awaits (A : Access σ) (w₀ : σ) (S : Setting) (c : Config) (q : Installable) : Prop :=
  q ∈ c.roots ∨ ∃ f ∈ c.stack, ∃ r ∈ f.pending, Found A w₀ S f.unit r (.provider q)

variable {A : Access σ} {w₀ : σ} {S : Setting} {U : Installable → Prop} {E : Failure → Prop}

theorem Broken.mono {V : Installable → Prop} {f : Failure} (h : Broken A w₀ S U f)
    (hUV : ∀ q, U q → V q) : Broken A w₀ S V f := by
  cases h with
  | list hw h hf => exact .list hw h hf
  | materialize hw hu h hf => exact .materialize hw (hUV _ hu) h hf
  | describe hw h => exact .describe hw h

theorem throws_pure (a : α) : Throws A w₀ (pure a) E := by
  intro w _ f w' h
  cases h

theorem throws_throw {f : Failure} (h : E f) : Throws A w₀ (throw f : EStateM Failure σ α) E := by
  intro w _ g w' hg
  cases hg
  exact h

theorem throws_bind {x : EStateM Failure σ α} {g : α → EStateM Failure σ β} {Q : α → Prop}
    (hx : Throws A w₀ x E) (hy : Yields A w₀ x Q) (hg : ∀ a, Q a → Throws A w₀ (g a) E) :
    Throws A w₀ (x >>= g) E := by
  intro w hw f w' hf
  obtain h | ⟨a, v, h, hf⟩ := of_bind_error hf
  · exact hx hw h
  · obtain ⟨hv, ha⟩ := hy hw h
    exact hg a ha hv hf

theorem Throws.mono {x : EStateM Failure σ α} {F : Failure → Prop} (h : Throws A w₀ x E)
    (hEF : ∀ f, E f → F f) : Throws A w₀ x F :=
  fun _ hw _ _ hf => hEF _ (h hw hf)

theorem throws_forM {g : α → EStateM Failure σ PUnit} (as : List α)
    (hg : ∀ a, Throws A w₀ (g a) E) (hy : ∀ a, Yields A w₀ (g a) fun _ => True) :
    Throws A w₀ (as.forM g) E := by
  induction as with
  | nil => exact throws_pure _
  | cons a as ih => exact throws_bind (hg a) (hy a) fun _ _ => ih

theorem throws_foldlM {g : β → α → EStateM Failure σ β} {next : β → α → β}
    (hg : ∀ b a, Throws A w₀ (g b a) E) (hy : ∀ b a, Yields A w₀ (g b a) (· = next b a))
    (as : List α) (b : β) : Throws A w₀ (as.foldlM g b) E := by
  induction as generalizing b with
  | nil => exact throws_pure _
  | cons a as ih =>
    rw [List.foldlM_cons]
    exact throws_bind (hg b a) (hy b a) fun b _ => ih b

theorem throws_log (level : Log.Level) (message : String) :
    Throws A w₀ (A.log level message) E := by
  intro w _ f w' h
  cases h

theorem throws_debug (message : String) : Throws A w₀ (A.debug message) E :=
  throws_log _ _

theorem throws_debug_bind {message : String} {g : Unit → EStateM Failure σ α}
    (hg : Throws A w₀ (g ()) E) : Throws A w₀ (A.debug message >>= g) E :=
  throws_bind (throws_debug _) (yields_debug _) fun _ _ => hg

theorem throws_describe (s : Source) : Throws A w₀ (A.describe s) (Broken A w₀ S U) :=
  fun _ hw _ _ h => .describe hw h

theorem throws_reason (s : Source) (answer : Probe) :
    Throws A w₀ (A.reason s answer) (Broken A w₀ S U) := by
  cases answer with
  | found u => exact throws_pure _
  | absent => exact throws_bind (throws_describe s) (yields_describe s) fun _ _ => throws_pure _
  | failed f => exact throws_pure _

theorem throws_label (u : Installable) : Throws A w₀ (A.label u) (Broken A w₀ S U) := by
  unfold Access.label
  cases u.owner with
  | none => exact throws_pure _
  | some s => exact throws_bind (throws_describe s) (yields_describe s) fun _ _ => throws_pure _

theorem throws_probe (s : Source) (r : Requirement) :
    Throws A w₀ (A.probe s r) (Broken A w₀ S U) := by
  intro w hw f w' h
  unfold Access.probe at h
  cases hl : A.list s w with
  | ok units v =>
    rw [hl] at h
    dsimp only at h
    split at h <;> cases h
  | error g v =>
    rw [hl] at h
    dsimp only at h
    split at h
    case isTrue => cases h
    case isFalse hf =>
      cases h
      exact .list hw hl (Bool.eq_false_iff.mpr hf)

theorem throws_searchAll (owner : Option Source) (r : Requirement) (ss : List Source) :
    Throws A w₀ (searchAll A owner r ss) (Broken A w₀ S U) := by
  induction ss with
  | nil => exact throws_pure _
  | cons s ss ih =>
    unfold searchAll
    split
    case isTrue => exact ih
    case isFalse =>
      refine throws_bind (throws_probe s r) (yields_probe s r) ?_
      rintro (q | _ | f) _
      · exact throws_bind (throws_describe s) (yields_describe s) fun _ _ =>
          throws_debug_bind (throws_pure _)
      · exact ih
      · exact throws_bind (throws_describe s) (yields_describe s) fun _ _ => throws_debug_bind ih

theorem throws_searchConfigured (r : Requirement) (owner : Option Source) (path : String) :
    Throws A w₀ (searchConfigured A S r owner path) fun f => Broken A w₀ S U f ∨
      Unmet A w₀ S r path (S.repositories.filter fun s => !owner.any s.same) f := by
  unfold searchConfigured
  refine throws_bind ((throws_searchAll owner r _).mono fun _ => Or.inl) (yields_searchAll _ _ _) ?_
  rintro (_ | q) hq
  · dsimp only
    split
    case isTrue => exact throws_debug_bind (throws_pure _)
    case isFalse hr =>
      split
      case isTrue => exact throws_debug_bind (throws_pure _)
      case isFalse hS =>
        have hfull : S.mode = .full := by
          cases h : S.mode with
          | full => rfl
          | slice => exact absurd h hS
        exact throws_throw (Or.inr ⟨rfl, hfull, Bool.eq_false_iff.mpr hr, hq⟩)
  · exact throws_pure _

theorem throws_searchBeyond {u : Installable} {s : Source} {r : Requirement}
    (hu : u.owner = some s) (hs : Lacking A w₀ s r) (path : String) (answer : Probe) :
    Throws A w₀ (searchBeyond A S r s path answer) fun f => Broken A w₀ S U f ∨
      Unmet A w₀ S r path (S.searched u r) f := by
  have hreason : Throws A w₀ (A.reason s answer) fun f => Broken A w₀ S U f ∨
      Unmet A w₀ S r path (S.searched u r) f := (throws_reason s answer).mono fun _ => Or.inl
  unfold searchBeyond
  split
  case isTrue hS =>
    exact throws_bind hreason (yields_reason s answer) fun _ _ =>
      throws_debug_bind (throws_pure _)
  case isFalse hS =>
    split
    case isTrue hr =>
      exact throws_bind hreason (yields_reason s answer) fun _ _ =>
        throws_debug_bind (throws_pure _)
    case isFalse hr =>
      rw [Setting.searched_of_unrestrained hu hS hr]
      refine (throws_searchConfigured r (some s) path).mono fun f => Or.imp_right ?_
      rintro ⟨rfl, hfull, ho, hlack⟩
      exact ⟨rfl, hfull, ho, List.forall_mem_cons.mpr ⟨hs, hlack⟩⟩

theorem throws_search (r : Requirement) (u : Installable) (path : String) :
    Throws A w₀ (search A S r u path) fun f => Broken A w₀ S U f ∨
      Unmet A w₀ S r path (S.searched u r) f := by
  cases hu : u.owner with
  | none =>
    rw [search_of_ownerless hu, Setting.searched_of_ownerless hu r]
    exact throws_searchConfigured r none path
  | some s =>
    rw [search_of_owner hu]
    refine throws_bind ((throws_probe s r).mono fun _ => Or.inl) (yields_probe s r) ?_
    rintro (q | _ | f) ha
    · exact throws_pure _
    · exact throws_searchBeyond hu ha path .absent
    · exact throws_searchBeyond hu ha path (.failed f)

theorem throws_contents (u : Installable) : Throws A w₀ (contents A S u) (Broken A w₀ S (· = u)) := by
  intro w hw f w' h
  unfold contents at h
  cases hm : A.materialize u w with
  | ok c v =>
    rw [hm] at h
    cases h
  | error g v =>
    rw [hm] at h
    dsimp only at h
    split at h
    case isTrue => cases h
    case isFalse hf =>
      cases h
      refine .materialize hw rfl hm fun hS => ?_
      simpa [hS] using hf

theorem throws_addBundle (p : Progress) (b : Bundle) : Throws A w₀ (addBundle A p b) E := by
  unfold addBundle
  split
  case isTrue => exact throws_pure _
  case isFalse => exact throws_debug_bind (throws_pure _)

theorem throws_addFeature (p : Progress) (f : Feature) : Throws A w₀ (addFeature A p f) E := by
  unfold addFeature
  split
  case isTrue => exact throws_pure _
  case isFalse => exact throws_debug_bind (throws_pure _)

theorem throws_visit (u : Installable) (p : Progress) :
    Throws A w₀ (visit A S u p) (Broken A w₀ S (· = u)) := by
  refine throws_bind (throws_forM _ (fun _ => throws_debug _) fun _ => yields_debug _)
    (yields_forM _ fun _ => yields_debug _) fun _ _ => ?_
  refine throws_bind (throws_log _ _) (yields_log _ _) fun _ _ => ?_
  refine throws_bind (throws_contents u) (yields_contents u) fun c _ => ?_
  refine throws_bind (throws_foldlM throws_addBundle yields_addBundle _ _)
    (yields_foldlM yields_addBundle _ _) fun p _ => ?_
  exact throws_foldlM throws_addFeature yields_addFeature _ _

theorem throws_enter (u : Installable) (path : String) (p : Progress) (stack : List Frame) :
    Throws A w₀ (enter A S u path p stack) (Broken A w₀ S (· = u)) := by
  unfold enter
  split
  case isTrue => exact throws_debug_bind (throws_pure _)
  case isFalse => exact throws_bind (throws_visit u p) (yields_visit u p) fun _ _ => throws_pure _

theorem throws_start (u : Installable) (p : Progress) :
    Throws A w₀ (start A S u p) (Broken A w₀ S (· = u)) :=
  throws_bind (throws_label u) (yields_label u) fun _ _ => throws_enter _ _ _ _

/-- A step fails with the repositories, or because the first pending requirement on top of the stack
is open and cannot be met. -/
theorem throws_step (p : Progress) (frame : Frame) (stack : List Frame) :
    Throws A w₀ (step A S p frame stack) fun f =>
      Broken A w₀ S (fun q => ∃ r ∈ frame.pending, Found A w₀ S frame.unit r (.provider q)) f ∨
      ∃ r rs, frame.pending = r :: rs ∧ p.state.isResolved r = false ∧
        Unmet A w₀ S r frame.path (S.searched frame.unit r) f := by
  obtain ⟨u, path, rs⟩ := frame
  cases rs with
  | nil => exact throws_pure _
  | cons r rs =>
    change Throws A w₀ (settle A S r ⟨u, path, r :: rs⟩ p (⟨u, path, rs⟩ :: stack)) _
    unfold settle
    split
    case isTrue => exact throws_debug_bind (throws_pure _)
    case isFalse hr =>
      rw [Bool.not_eq_true] at hr
      split
      case isTrue => exact throws_debug_bind (throws_pure _)
      case isFalse =>
        refine throws_debug_bind ?_
        refine throws_bind ((throws_search r u path).mono fun f => Or.imp_right fun hf => ?_)
          (yields_search S r u path) ?_
        · exact ⟨r, rs, rfl, hr, hf⟩
        · rintro (q | _ | _) hq
          · refine throws_bind ((throws_label q).mono fun _ => Or.inl) (yields_label q) fun _ _ =>
              (throws_enter _ _ _ _).mono fun f hf => Or.inl (hf.mono ?_)
            rintro _ rfl
            exact ⟨r, List.mem_cons_self, hq⟩
          · exact throws_pure _
          · exact throws_pure _

/-- Where a run stops, the repositories fail or a requirement of the unit on top of the stack is
unmet. -/
theorem broken_or_unmet_of_stops {m : Moment σ} {f : Failure} {w : σ}
    (hm : Reaches A w₀ m.world) (h : Stops A S m f w) :
    Broken A w₀ S (m.Awaits A w₀ S) f ∨ ∃ frame stack r rs,
      m.stack = frame :: stack ∧ frame.pending = r :: rs ∧
      m.progress.state.isResolved r = false ∧
      Unmet A w₀ S r frame.path (S.searched frame.unit r) f := by
  cases h with
  | root h =>
    refine Or.inl ((throws_start _ _ hm h).mono ?_)
    rintro _ rfl
    exact Or.inl List.mem_cons_self
  | step h =>
    obtain hf | ⟨r, rs, hpending, hr, hf⟩ := throws_step _ _ _ hm h
    · exact Or.inl (hf.mono fun q hq => Or.inr ⟨_, List.mem_cons_self, hq⟩)
    · exact Or.inr ⟨_, _, r, rs, rfl, hpending, hr, hf⟩

end Provision.Resolution
