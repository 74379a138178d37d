import Provision.Resolution.Search

namespace Provision.Resolution

variable {σ α β : Type}

/-- The world in which a computation ends, whether it fails or not. -/
def endWorld : EStateM.Result Failure σ α → σ
  | .ok _ w => w
  | .error _ w => w

/-- The worlds that reading repositories and noting messages can lead to. -/
inductive Reaches (A : Access σ) (w₀ : σ) : σ → Prop where
  | start : Reaches A w₀ w₀
  | list {w : σ} (s : Source) (h : Reaches A w₀ w) : Reaches A w₀ (endWorld (A.list s w))
  | materialize {w : σ} (u : Installable) (h : Reaches A w₀ w) :
      Reaches A w₀ (endWorld (A.materialize u w))
  | describe {w : σ} (s : Source) (h : Reaches A w₀ w) : Reaches A w₀ (endWorld (A.describe s w))
  | note {w : σ} (m : Log.Record) (h : Reaches A w₀ w) : Reaches A w₀ (A.note m w)

/-- Whatever a computation returns in a world that can be reached satisfies `Q`, and leaves a world
that can be reached. -/
def Yields (A : Access σ) (w₀ : σ) (x : EStateM Failure σ α) (Q : α → Prop) : Prop :=
  ∀ ⦃w⦄, Reaches A w₀ w → ∀ ⦃a w'⦄, x w = .ok a w' → Reaches A w₀ w' ∧ Q a

def Listed (A : Access σ) (w₀ : σ) (s : Source) (units : List Installable) : Prop :=
  ∃ w, Reaches A w₀ w ∧ ∃ w', A.list s w = .ok units w'

/-- A unit is the first one that a repository has for a requirement. -/
def Offered (A : Access σ) (w₀ : σ) (s : Source) (r : Requirement) (q : Installable) : Prop :=
  ∃ units, Listed A w₀ s units ∧ units.find? (·.satisfies r) = some q

/-- A repository cannot be read or has nothing for a requirement. -/
def Lacking (A : Access σ) (w₀ : σ) (s : Source) (r : Requirement) : Prop :=
  (∃ w, Reaches A w₀ w ∧ ∃ f w', A.list s w = .error f w' ∧ f.isMissing) ∨
    ∃ units, Listed A w₀ s units ∧ ∀ q ∈ units, q.satisfies r = false

def Labelled (A : Access σ) (w₀ : σ) (u : Installable) (label : String) : Prop :=
  ∃ w, Reaches A w₀ w ∧ ∃ w', A.label u w = .ok label w'

variable {A : Access σ} {w₀ : σ}

theorem Reaches.trans {w v : σ} (hw : Reaches A w₀ w) (hv : Reaches A w v) : Reaches A w₀ v := by
  induction hv with
  | start => exact hw
  | list s _ ih => exact ih.list s
  | materialize u _ ih => exact ih.materialize u
  | describe s _ ih => exact ih.describe s
  | note m _ ih => exact ih.note m

theorem bind_of_ok {x : EStateM Failure σ α} {g : α → EStateM Failure σ β} {w v : σ} {a : α}
    (h : x w = .ok a v) : (x >>= g) w = g a v := by
  simp only [bind, EStateM.bind, h]

theorem bind_of_error {x : EStateM Failure σ α} {g : α → EStateM Failure σ β} {w v : σ} {f : Failure}
    (h : x w = .error f v) : (x >>= g) w = .error f v := by
  simp only [bind, EStateM.bind, h]

theorem exists_of_bind_ok {x : EStateM Failure σ α} {g : α → EStateM Failure σ β} {w w' : σ} {b : β}
    (h : (x >>= g) w = .ok b w') : ∃ a v, x w = .ok a v ∧ g a v = .ok b w' := by
  cases hx : x w with
  | ok a v => exact ⟨a, v, rfl, (bind_of_ok hx).symm.trans h⟩
  | error f v => cases (bind_of_error hx).symm.trans h

theorem of_bind_error {x : EStateM Failure σ α} {g : α → EStateM Failure σ β} {w w' : σ}
    {f : Failure} (h : (x >>= g) w = .error f w') :
    x w = .error f w' ∨ ∃ a v, x w = .ok a v ∧ g a v = .error f w' := by
  cases hx : x w with
  | ok a v => exact Or.inr ⟨a, v, rfl, (bind_of_ok hx).symm.trans h⟩
  | error k v =>
    rw [bind_of_error hx] at h
    cases h
    exact Or.inl rfl

theorem yields_pure {a : α} {Q : α → Prop} (h : Q a) : Yields A w₀ (pure a) Q := by
  intro w hw b w' hb
  cases hb
  exact ⟨hw, h⟩

theorem yields_throw (f : Failure) (Q : α → Prop) : Yields A w₀ (throw f) Q := by
  intro w _ a w' h
  cases h

theorem yields_bind {x : EStateM Failure σ α} {g : α → EStateM Failure σ β} {Q : α → Prop}
    {R : β → Prop} (hx : Yields A w₀ x Q) (hg : ∀ a, Q a → Yields A w₀ (g a) R) :
    Yields A w₀ (x >>= g) R := by
  intro w hw b w' hb
  obtain ⟨a, v, h, hb⟩ := exists_of_bind_ok hb
  obtain ⟨hv, ha⟩ := hx hw h
  exact hg a ha hv hb

theorem Yields.mono {x : EStateM Failure σ α} {Q R : α → Prop} (h : Yields A w₀ x Q)
    (hQR : ∀ a, Q a → R a) : Yields A w₀ x R := by
  intro w hw a w' ha
  obtain ⟨hw', hq⟩ := h hw ha
  exact ⟨hw', hQR a hq⟩

theorem yields_forM {f : α → EStateM Failure σ PUnit} (as : List α)
    (h : ∀ a, Yields A w₀ (f a) fun _ => True) : Yields A w₀ (as.forM f) fun _ => True := by
  induction as with
  | nil => exact yields_pure trivial
  | cons a as ih => exact yields_bind (h a) fun _ _ => ih

theorem yields_foldlM {f : β → α → EStateM Failure σ β} {g : β → α → β}
    (h : ∀ b a, Yields A w₀ (f b a) (· = g b a)) (as : List α) (b : β) :
    Yields A w₀ (as.foldlM f b) (· = as.foldl g b) := by
  induction as generalizing b with
  | nil => exact yields_pure rfl
  | cons a as ih =>
    rw [List.foldlM_cons, List.foldl_cons]
    refine yields_bind (h b a) ?_
    rintro _ rfl
    exact ih _

theorem yields_log (level : Log.Level) (message : String) :
    Yields A w₀ (A.log level message) fun _ => True := by
  intro w hw a w' h
  cases h
  exact ⟨hw.note _, trivial⟩

theorem yields_debug (message : String) : Yields A w₀ (A.debug message) fun _ => True :=
  yields_log _ _

theorem yields_describe (s : Source) : Yields A w₀ (A.describe s) fun _ => True := by
  intro w hw a w' h
  have hv := hw.describe s
  rw [h] at hv
  exact ⟨hv, trivial⟩

theorem yields_reason (s : Source) (answer : Probe) :
    Yields A w₀ (A.reason s answer) fun _ => True := by
  cases answer with
  | found u => exact yields_pure trivial
  | absent => exact yields_bind (yields_describe s) fun _ _ => yields_pure trivial
  | failed f => exact yields_pure trivial

theorem yields_label (u : Installable) : Yields A w₀ (A.label u) (Labelled A w₀ u) := by
  intro w hw label w' h
  refine ⟨?_, w, hw, w', h⟩
  revert h
  unfold Access.label
  cases u.owner with
  | none =>
    intro h
    exact (yields_pure (Q := fun _ => True) trivial hw h).1
  | some s =>
    intro h
    exact (yields_bind (yields_describe s)
      (fun _ _ => yields_pure (Q := fun _ => True) trivial) hw h).1

def Answers (A : Access σ) (w₀ : σ) (s : Source) (r : Requirement) : Probe → Prop
  | .found q => Offered A w₀ s r q
  | .absent | .failed _ => Lacking A w₀ s r

theorem yields_probe (s : Source) (r : Requirement) :
    Yields A w₀ (A.probe s r) (Answers A w₀ s r) := by
  intro w hw answer w' h
  have hv := hw.list s
  unfold Access.probe at h
  cases hl : A.list s w with
  | ok units v =>
    rw [hl] at h hv
    have hlisted : Listed A w₀ s units := ⟨w, hw, v, hl⟩
    dsimp only at h
    split at h
    case h_1 q hq =>
      cases h
      exact ⟨hv, units, hlisted, hq⟩
    case h_2 hn =>
      cases h
      refine ⟨hv, Or.inr ⟨units, hlisted, ?_⟩⟩
      simpa using hn
  | error f v =>
    rw [hl] at h hv
    dsimp only at h
    split at h
    case isTrue hf =>
      cases h
      exact ⟨hv, Or.inl ⟨w, hw, f, w', hl, hf⟩⟩
    case isFalse => cases h

/-- The repositories where a requirement of a unit may be searched, in order. -/
def Setting.sources (S : Setting) (u : Installable) : List Source :=
  match u.owner with
  | none => S.repositories
  | some s => if S.mode = .slice then [s] else s :: S.repositories.filter fun t => !t.same s

/-- The repositories where a requirement of a unit is searched, in order. -/
def Setting.searched (S : Setting) (u : Installable) (r : Requirement) : List Source :=
  match u.owner with
  | none => S.repositories
  | some s =>
    if S.mode = .slice || (r.optional && !r.greedy) then [s]
    else s :: S.repositories.filter fun t => !t.same s

inductive Chosen (A : Access σ) (w₀ : σ) (r : Requirement) (q : Installable) :
    List Source → Prop where
  | here {s ss} (h : Offered A w₀ s r q) : Chosen A w₀ r q (s :: ss)
  | later {s ss} (hs : Lacking A w₀ s r) (h : Chosen A w₀ r q ss) : Chosen A w₀ r q (s :: ss)

def Found (A : Access σ) (w₀ : σ) (S : Setting) (u : Installable) (r : Requirement) :
    Outcome → Prop
  | .provider q => Chosen A w₀ r q (S.searched u r)
  | .dropped => r.optional ∧ (S.mode = .slice → u.owner = none) ∧
      ∀ s ∈ S.searched u r, Lacking A w₀ s r
  | .failed => S.mode = .slice ∧ (u.owner = none → r.optional = false) ∧
      ∀ s ∈ S.searched u r, Lacking A w₀ s r

theorem Chosen.exists_offered {r : Requirement} {q : Installable} {ss : List Source}
    (h : Chosen A w₀ r q ss) : ∃ s ∈ ss, Offered A w₀ s r q := by
  induction h with
  | here h => exact ⟨_, List.mem_cons_self, h⟩
  | later _ _ ih =>
    obtain ⟨s, hs, h⟩ := ih
    exact ⟨s, List.mem_cons_of_mem _ hs, h⟩

theorem Setting.searched_of_ownerless {S : Setting} {u : Installable} (hu : u.owner = none)
    (r : Requirement) :
    S.searched u r = S.repositories.filter fun t => !(none : Option Source).any t.same := by
  rw [searched, hu]
  exact (List.filter_eq_self.mpr fun _ _ => rfl).symm

theorem Setting.searched_of_slice {S : Setting} {u : Installable} {s : Source}
    (hu : u.owner = some s) (hS : S.mode = .slice) (r : Requirement) : S.searched u r = [s] := by
  simp [searched, hu, hS]

theorem Setting.searched_of_restrained {S : Setting} {u : Installable} {s : Source}
    {r : Requirement} (hu : u.owner = some s) (hr : (r.optional && !r.greedy) = true) :
    S.searched u r = [s] := by
  simp [searched, hu, hr]

theorem Setting.searched_of_unrestrained {S : Setting} {u : Installable} {s : Source}
    {r : Requirement} (hu : u.owner = some s) (hS : S.mode ≠ .slice)
    (hr : ¬(r.optional && !r.greedy) = true) :
    S.searched u r = s :: S.repositories.filter fun t => !(some s).any t.same := by
  have hne : ¬(decide (S.mode = .slice) || (r.optional && !r.greedy)) = true := by simpa [hS] using hr
  rw [searched, hu]
  exact if_neg hne

theorem Setting.searched_eq_sources {S : Setting} (hS : S.mode = .slice) (u : Installable)
    (r : Requirement) : S.searched u r = S.sources u := by
  unfold searched sources
  cases u.owner <;> simp [hS]

theorem Setting.searched_subset_sources (S : Setting) (u : Installable) (r : Requirement) :
    S.searched u r ⊆ S.sources u := by
  by_cases hS : S.mode = .slice
  · rw [searched_eq_sources hS]
    exact List.Subset.refl _
  · unfold searched sources
    cases u.owner with
    | none => exact List.Subset.refl _
    | some s =>
      dsimp only
      rw [if_neg hS]
      split
      · simp
      · exact List.Subset.refl _

theorem yields_searchAll (owner : Option Source) (r : Requirement) (ss : List Source) :
    Yields A w₀ (searchAll A owner r ss) fun
      | some q => Chosen A w₀ r q (ss.filter fun s => !owner.any s.same)
      | none => ∀ s ∈ ss.filter fun s => !owner.any s.same, Lacking A w₀ s r := by
  induction ss with
  | nil => exact yields_pure (by simp)
  | cons s ss ih =>
    unfold searchAll
    split
    case isTrue h => simpa [h] using ih
    case isFalse h =>
      rw [List.filter_cons_of_pos (by simpa using h)]
      have hrest (hs : Lacking A w₀ s r) : Yields A w₀ (searchAll A owner r ss) fun
          | some q => Chosen A w₀ r q (s :: ss.filter fun s => !owner.any s.same)
          | none => ∀ t ∈ s :: ss.filter fun s => !owner.any s.same, Lacking A w₀ t r := by
        refine ih.mono ?_
        rintro (_ | q) hq
        · exact List.forall_mem_cons.mpr ⟨hs, hq⟩
        · exact .later hs hq
      refine yields_bind (yields_probe s r) ?_
      rintro (q | _ | f) ha
      · refine yields_bind (yields_describe s) fun _ _ => yields_bind (yields_debug _) fun _ _ => ?_
        exact yields_pure (.here ha)
      · exact hrest ha
      · exact yields_bind (yields_describe s) fun _ _ => yields_bind (yields_debug _) fun _ _ => hrest ha

theorem yields_searchConfigured (S : Setting) (r : Requirement) (owner : Option Source)
    (path : String) :
    Yields A w₀ (searchConfigured A S r owner path) fun
      | .provider q => Chosen A w₀ r q (S.repositories.filter fun s => !owner.any s.same)
      | .dropped => r.optional ∧
          ∀ s ∈ S.repositories.filter fun s => !owner.any s.same, Lacking A w₀ s r
      | .failed => S.mode = .slice ∧ r.optional = false ∧
          ∀ s ∈ S.repositories.filter fun s => !owner.any s.same, Lacking A w₀ s r := by
  unfold searchConfigured
  refine yields_bind (yields_searchAll owner r S.repositories) ?_
  rintro (_ | q) hq
  · dsimp only
    split
    case isTrue h =>
      exact yields_bind (yields_debug _) fun _ _ => yields_pure ⟨h, hq⟩
    case isFalse hr =>
      split
      case isTrue h =>
        exact yields_bind (yields_debug _) fun _ _ =>
          yields_pure ⟨h, Bool.eq_false_iff.mpr hr, hq⟩
      case isFalse => exact yields_throw _ _
  · exact yields_pure hq

theorem Setting.sources_of_slice {S : Setting} {u : Installable} {s : Source}
    (hu : u.owner = some s) (hS : S.mode = .slice) : S.sources u = [s] := by
  simp [sources, hu, hS]

def searchBeyond (A : Access σ) (S : Setting) (r : Requirement) (s : Source) (path : String)
    (answer : Probe) : EStateM Failure σ Outcome := do
  if S.mode = .slice then
    A.debug ("Failed to resolve " ++ r.text ++ " (" ++ (← A.reason s answer) ++
      "), ignore because of slice mode...")
    return .failed
  else if r.optional && !r.greedy then
    A.debug ("Failed to resolve optional " ++ r.text ++ " (" ++ (← A.reason s answer) ++
      "), ignore because of non greedy...")
    return .dropped
  else searchConfigured A S r (some s) path

theorem search_of_ownerless {S : Setting} {u : Installable} (hu : u.owner = none) (r : Requirement)
    (path : String) : search A S r u path = searchConfigured A S r none path := by
  unfold search
  rw [hu]

theorem search_of_owner {S : Setting} {u : Installable} {s : Source} (hu : u.owner = some s)
    (r : Requirement) (path : String) : search A S r u path = (do
      match ← A.probe s r with
      | .found q => return .provider q
      | answer => searchBeyond A S r s path answer) := by
  unfold search
  rw [hu]
  refine bind_congr ?_
  rintro (q | _ | f) <;> rfl

theorem yields_searchBeyond {S : Setting} {u : Installable} {s : Source} {r : Requirement}
    (hu : u.owner = some s) (hs : Lacking A w₀ s r) (path : String) (answer : Probe) :
    Yields A w₀ (searchBeyond A S r s path answer) (Found A w₀ S u r) := by
  unfold searchBeyond
  split
  case isTrue hS =>
    refine yields_bind (yields_reason s answer) fun _ _ =>
      yields_bind (yields_debug _) fun _ _ => yields_pure ⟨hS, fun h => ?_, ?_⟩
    · rw [hu] at h
      cases h
    · simpa [Setting.searched_of_slice hu hS] using hs
  case isFalse hS =>
    split
    case isTrue hr =>
      obtain ⟨ho, -⟩ : r.optional = true ∧ r.greedy = false := by simpa using hr
      refine yields_bind (yields_reason s answer) fun _ _ =>
        yields_bind (yields_debug _) fun _ _ => yields_pure ⟨ho, fun h => absurd h hS, ?_⟩
      simpa [Setting.searched_of_restrained hu hr] using hs
    case isFalse hr =>
      refine (yields_searchConfigured S r (some s) path).mono ?_
      have hsearched := Setting.searched_of_unrestrained hu hS hr
      rintro (q | _ | _) hq
      · unfold Found
        rw [hsearched]
        exact .later hs hq
      · refine ⟨hq.1, fun h => absurd h hS, ?_⟩
        rw [hsearched]
        exact List.forall_mem_cons.mpr ⟨hs, hq.2⟩
      · exact absurd hq.1 hS

theorem yields_search (S : Setting) (r : Requirement) (u : Installable) (path : String) :
    Yields A w₀ (search A S r u path) (Found A w₀ S u r) := by
  cases hu : u.owner with
  | none =>
    rw [search_of_ownerless hu]
    refine (yields_searchConfigured S r none path).mono ?_
    rw [← Setting.searched_of_ownerless hu r]
    rintro (q | _ | _) hq
    · exact hq
    · exact ⟨hq.1, fun _ => hu, hq.2⟩
    · exact ⟨hq.1, fun _ => hq.2.1, hq.2.2⟩
  | some s =>
    rw [search_of_owner hu]
    refine yields_bind (yields_probe s r) ?_
    rintro (q | _ | f) ha
    · refine yields_pure ?_
      unfold Found Setting.searched
      rw [hu]
      dsimp only
      split <;> exact .here ha
    · exact yields_searchBeyond hu ha path .absent
    · exact yields_searchBeyond hu ha path (.failed f)

end Provision.Resolution
