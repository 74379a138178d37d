import Provision.Proofs.Resolution.Correspondence

namespace Provision.Resolution

variable {σ τ α β : Type}

/-- A repository has no units: it lists none, or what it would list is missing. -/
def Bare : EStateM.Result Failure σ (List Installable) → Prop
  | .ok units _ => units = []
  | .error f _ => f.isMissing

def Quiet (rel : σ → τ → Prop) (x : EStateM Failure σ α) : Prop :=
  ∀ w v, rel w v → ∃ a w', x w = .ok a w' ∧ rel w' v

/-- What two collections of repositories do that correspond to each other but for repositories without
units. Those are without units in both, and can be named in each without regard to the other. -/
structure Access.Rivals (rel : σ → τ → Prop) (A : Access σ) (B : Access τ) : Prop where
  list : ∀ s w v, rel w v → SameEnd rel (B.list s v) (A.list s w) ∨
    (Bare (A.list s w) ∧ Bare (B.list s v) ∧ rel (endWorld (A.list s w)) (endWorld (B.list s v)) ∧
      Quiet rel (A.describe s) ∧ Quiet (fun v w => rel w v) (B.describe s))
  materialize : ∀ u, Mirrors (fun _ => True) rel (A.materialize u) (B.materialize u)
  describe : ∀ s, Mirrors (fun _ => True) rel (A.describe s) (B.describe s)
  left : ∀ m w v, rel w v → rel (A.note m w) v
  right : ∀ m w v, rel w v → rel w (B.note m v)

def Probe.isFound : Probe → Bool
  | .found _ => true
  | .absent | .failed _ => false

variable {rel : σ → τ → Prop} {A : Access σ} {B : Access τ}

theorem quiet_pure (a : α) : Quiet rel (pure a : EStateM Failure σ α) :=
  fun w _ h => ⟨a, w, rfl, h⟩

theorem quiet_bind {x : EStateM Failure σ α} {g : α → EStateM Failure σ β} (hx : Quiet rel x)
    (hg : ∀ a, Quiet rel (g a)) : Quiet rel (x >>= g) := by
  intro w v h
  obtain ⟨a, w₁, hx, h⟩ := hx w v h
  obtain ⟨b, w₂, hg, h⟩ := hg a w₁ v h
  exact ⟨b, w₂, (bind_of_ok hx).trans hg, h⟩

theorem quiet_debug (h : ∀ m w v, rel w v → rel (A.note m w) v) (message : String) :
    Quiet rel (A.debug message) :=
  fun w v hv => ⟨(), _, rfl, h _ w v hv⟩

theorem quiet_reason {s : Source} (h : Quiet rel (A.describe s)) (answer : Probe) :
    Quiet rel (A.reason s answer) := by
  cases answer with
  | found u => exact quiet_pure _
  | absent => exact quiet_bind h fun _ => quiet_pure _
  | failed f => exact quiet_pure _

theorem mirrors_of_quiet {x : EStateM Failure σ β} {g : β → EStateM Failure σ α}
    {y : EStateM Failure τ α} (hx : Quiet rel x)
    (hg : ∀ b, Mirrors (fun _ => True) rel (g b) y) : Mirrors (fun _ => True) rel (x >>= g) y := by
  refine ⟨fun _ _ => trivial, fun w v _ h => ?_⟩
  obtain ⟨b, w', hx, h⟩ := hx w v h
  rw [bind_of_ok hx]
  exact (hg b).same w' v trivial h

theorem mirrors_of_quiet_right {x : EStateM Failure σ α} {y : EStateM Failure τ β}
    {g : β → EStateM Failure τ α} (hy : Quiet (fun v w => rel w v) y)
    (hg : ∀ b, Mirrors (fun _ => True) rel x (g b)) : Mirrors (fun _ => True) rel x (y >>= g) :=
  (mirrors_of_quiet hy fun b => (hg b).symm).symm

theorem exists_probe_of_bare {s : Source} {w : σ} (h : Bare (A.list s w)) (r : Requirement) :
    ∃ answer : Probe, answer.isFound = false ∧
      A.probe s r w = .ok answer (endWorld (A.list s w)) := by
  unfold Access.probe
  cases hl : A.list s w with
  | ok units w' =>
    rw [hl] at h
    obtain rfl : units = [] := h
    exact ⟨.absent, rfl, rfl⟩
  | error f w' =>
    rw [hl] at h
    have hf : f.isMissing = true := h
    exact ⟨.failed f, rfl, by dsimp only; rw [if_pos hf]; rfl⟩

namespace Access.Rivals

variable (h : A.Rivals rel B)

include h

/-- What is done with an answer comes out alike if it does so with no regard to why nothing was
found, where that can be said. -/
theorem probe_bind (s : Source) (r : Requirement) {g : Probe → EStateM Failure σ α}
    {k : Probe → EStateM Failure τ α} (hsame : ∀ p, Mirrors (fun _ => True) rel (g p) (k p))
    (hbare : Quiet rel (A.describe s) → Quiet (fun v w => rel w v) (B.describe s) →
      ∀ p q : Probe, p.isFound = false → q.isFound = false →
        Mirrors (fun _ => True) rel (g p) (k q)) :
    Mirrors (fun _ => True) rel (A.probe s r >>= g) (B.probe s r >>= k) := by
  refine ⟨fun _ _ => trivial, fun w v _ hv => ?_⟩
  obtain hlist | ⟨hA, hB, hend, hnameA, hnameB⟩ := h.list s w v hv
  · exact sameEnd_bind (sameEnd_probe hlist r) fun p w' v' _ hv' => (hsame p).same w' v' trivial hv'
  · obtain ⟨p, hp, hA⟩ := exists_probe_of_bare hA r
    obtain ⟨q, hq, hB⟩ := exists_probe_of_bare hB r
    rw [bind_of_ok hA, bind_of_ok hB]
    exact (hbare hnameA hnameB p q hp hq).same _ _ trivial hend

theorem unlisted :
    Access.Mirrored (fun _ => True) rel { A with list := fun _ => pure [] }
      { B with list := fun _ => pure [] } where
  ask q := by
    cases q with
    | list s => exact mirrors_pure _
    | materialize u => exact h.materialize u
    | describe s => exact h.describe s
  back _ _ _ := trivial
  note m w v hv := h.right m _ v (h.left m w v hv)

theorem alike (S : Setting) : Alike (fun _ => True) rel A S B S where
  back _ _ _ := trivial
  note := h.unlisted.note
  label u := (mirrors_label h.unlisted u :)
  contents u := (mirrors_contents h.unlisted S u :)

theorem debug (m n : String) : Mirrors (fun _ => True) rel (A.debug m) (B.debug n) :=
  ⟨fun _ _ => trivial, fun w v _ hv => ⟨_, h.right _ _ v (h.left _ w v hv), rfl⟩⟩

theorem searchAll (owner : Option Source) (r : Requirement) (ss : List Source) :
    Mirrors (fun _ => True) rel (searchAll A owner r ss) (searchAll B owner r ss) := by
  induction ss with
  | nil => exact mirrors_pure _
  | cons s ss ih =>
    unfold Resolution.searchAll
    split
    case isTrue => exact ih
    case isFalse =>
      refine h.probe_bind s r ?_ fun hA hB p q hp hq => ?_
      · rintro (q | _ | f)
        · exact mirrors_bind (h.describe s) fun _ => mirrors_bind (h.debug _ _) fun _ => mirrors_pure _
        · exact ih
        · exact mirrors_bind (h.describe s) fun _ => mirrors_bind (h.debug _ _) fun _ => ih
      -- Either side may have to name the repository for its message, where the other one says nothing.
      · have hleft {y : EStateM Failure τ (Option Installable)} {f : Failure}
            (hy : Mirrors (fun _ => True) rel (Resolution.searchAll A owner r ss) y) :
            Mirrors (fun _ => True) rel (do
              A.debug ("Skip repository " ++ (← A.describe s) ++ ": " ++ f.message)
              Resolution.searchAll A owner r ss) y :=
          mirrors_of_quiet hA fun _ => mirrors_of_quiet (quiet_debug h.left _) fun _ => hy
        have hright {x : EStateM Failure σ (Option Installable)} {f : Failure}
            (hx : Mirrors (fun _ => True) rel x (Resolution.searchAll B owner r ss)) :
            Mirrors (fun _ => True) rel x (do
              B.debug ("Skip repository " ++ (← B.describe s) ++ ": " ++ f.message)
              Resolution.searchAll B owner r ss) :=
          mirrors_of_quiet_right hB fun _ =>
            mirrors_of_quiet_right (quiet_debug (fun m v w => h.right m w v) _) fun _ => hx
        cases p with
        | found => cases hp
        | absent =>
          cases q with
          | found => cases hq
          | absent => exact ih
          | failed f => exact hright ih
        | failed g =>
          cases q with
          | found => cases hq
          | absent => exact hleft ih
          | failed f => exact hleft (hright ih)

/-- What a search comes to where the owner has nothing depends on its answer by the reason alone that
is given in a message. -/
theorem searchBeyond (S : Setting) (r : Requirement) (s : Source) (path : String) {p q : Probe}
    (hreason : ∀ words : String → String, Mirrors (fun _ => True) rel
      (A.reason s p >>= fun reason => A.debug (words reason))
      (B.reason s q >>= fun reason => B.debug (words reason))) :
    Mirrors (fun _ => True) rel (searchBeyond A S r s path p) (searchBeyond B S r s path q) := by
  have hsaid (words : String → String) (o : Outcome) : Mirrors (fun _ => True) rel
      (do A.debug (words (← A.reason s p)); return o)
      (do B.debug (words (← B.reason s q)); return o) := by
    have hends := mirrors_bind (hreason words) fun _ => mirrors_pure o
    rwa [bind_assoc, bind_assoc] at hends
  unfold Resolution.searchBeyond
  split
  case isTrue =>
    exact hsaid (fun reason => "Failed to resolve " ++ r.text ++ " (" ++ reason ++
      "), ignore because of slice mode...") .failed
  case isFalse =>
    split
    case isTrue =>
      exact hsaid (fun reason => "Failed to resolve optional " ++ r.text ++ " (" ++ reason ++
        "), ignore because of non greedy...") .dropped
    case isFalse =>
      exact (h.alike S).searchConfigured rfl (h.searchAll (some s) r S.repositories) path

theorem search (S : Setting) (r : Requirement) (u : Installable) (path : String) :
    Mirrors (fun _ => True) rel (search A S r u path) (search B S r u path) := by
  cases hu : u.owner with
  | none =>
    rw [search_of_ownerless hu, search_of_ownerless hu]
    exact (h.alike S).searchConfigured rfl (h.searchAll none r S.repositories) path
  | some s =>
    rw [search_of_owner hu, search_of_owner hu]
    refine h.probe_bind s r ?_ fun hA hB p q hp hq => ?_
    · have hsame (p : Probe) : Mirrors (fun _ => True) rel (Resolution.searchBeyond A S r s path p)
          (Resolution.searchBeyond B S r s path p) := h.searchBeyond S r s path fun words =>
        mirrors_bind (mirrors_reason h.unlisted s p) fun _ => h.debug _ _
      rintro (q | _ | f)
      · exact mirrors_pure _
      · exact hsame .absent
      · exact hsame (.failed f)
    · have hbare : Mirrors (fun _ => True) rel (Resolution.searchBeyond A S r s path p)
          (Resolution.searchBeyond B S r s path q) := h.searchBeyond S r s path fun words =>
        mirrors_of_quiet (quiet_reason hA p) fun _ =>
          mirrors_of_quiet_right (quiet_reason hB q) fun _ => h.debug _ _
      cases p with
      | found => cases hp
      | absent | failed f =>
        cases q with
        | found => cases hq
        | absent | failed g => exact hbare

variable {requested : List Installable} {w : σ} {v : τ}

/-- Runs over repositories that correspond to each other but for some without units end alike. -/
theorem resolve (S : Setting) (hv : rel w v) :
    SameEnd rel (resolve B S requested v) (resolve A S requested w) :=
  (h.alike S).resolve rfl (fun _ _ f _ r _ => h.search S r f.unit f.path) hv

end Access.Rivals

end Provision.Resolution
