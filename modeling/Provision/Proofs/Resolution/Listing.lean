import Provision.Proofs.Resolution.Calls

namespace Provision.Resolution

variable {σ : Type}

abbrev Listing := Source → List Installable

/-- A repository that can be read lists its units. -/
def Listing.Allows (L : Listing) : Call → Prop
  | ⟨.list s, .ok units⟩ => units = L s
  | _ => True

/-- A repository is passed over in the search for a requirement: it could not be read, or none of its
units has anything. -/
def Listing.PassedOver (L : Listing) (cs : List Call) (r : Requirement) (s : Source) : Prop :=
  (∃ f, f.isMissing ∧ (⟨.list s, .error f⟩ : Call) ∈ cs) ∨ ∀ q ∈ L s, q.satisfies r = false

/-- The search order designates a unit for a requirement of another one: it is the first that its
repository has, and those to be searched before that one are passed over. -/
def Setting.Designates (S : Setting) (L : Listing) (cs : List Call) (u : Installable)
    (r : Requirement) (q : Installable) : Prop :=
  ∃ before s after, S.searched u r = before ++ s :: after ∧
    (L s).find? (·.satisfies r) = some q ∧ ∀ t ∈ before, L.PassedOver cs r t

abbrev Naming := Source → String

/-- A repository that is asked for what it is called says so, or fails. -/
def Naming.Allows (D : Naming) : Call → Prop
  | ⟨.describe s, .ok name⟩ => name = D s
  | _ => True

def Naming.label (D : Naming) (u : Installable) : String :=
  match u.owner with
  | none => u.id
  | some s => u.id ++ "[" ++ D s ++ "]"

/-- Every repository lists the same units and is called the same in every world that can be reached,
if it can be read. -/
structure Steady (A : Access σ) (w₀ : σ) (L : Listing) (D : Naming) : Prop where
  list : ∀ ⦃w⦄, Reaches A w₀ w → ∀ ⦃s units w'⦄, A.list s w = .ok units w' → units = L s
  describe : ∀ ⦃w⦄, Reaches A w₀ w → ∀ ⦃s name w'⦄, A.describe s w = .ok name w' → name = D s

variable {A : Access σ} {S : Setting} {cs : List Call} {L : Listing} {D : Naming}

theorem Steady.allows_listing {requested : List Installable} {w : σ} (h : Steady A w L D)
    {c : Call} (hc : c ∈ calls A S requested w) : L.Allows c := by
  obtain ⟨v, hv, hanswer⟩ := heard_calls hc
  obtain ⟨q, answer⟩ := c
  cases answer with
  | error f => cases q <;> trivial
  | ok a =>
    obtain ⟨v', h'⟩ := exists_of_answerOf_eq_ok hanswer
    cases q with
    | list s => exact h.list hv h'
    | materialize u | describe s => trivial

theorem Steady.allows_naming {requested : List Installable} {w : σ} (h : Steady A w L D)
    {c : Call} (hc : c ∈ calls A S requested w) : D.Allows c := by
  obtain ⟨v, hv, hanswer⟩ := heard_calls hc
  obtain ⟨q, answer⟩ := c
  cases answer with
  | error f => cases q <;> trivial
  | ok a =>
    obtain ⟨v', h'⟩ := exists_of_answerOf_eq_ok hanswer
    cases q with
    | describe s => exact h.describe hv h'
    | list s | materialize u => trivial

theorem eq_of_listed (hL : ∀ c ∈ cs, L.Allows c) {s : Source} {units : List Installable}
    (h : Listed replay cs s units) : units = L s := by
  obtain ⟨rest, hr, rest', hlist⟩ := h
  exact hL _ (mem_of_hear_ok hr hlist)

theorem passedOver_of_lacking (hL : ∀ c ∈ cs, L.Allows c) {s : Source} {r : Requirement}
    (h : Lacking replay cs s r) : L.PassedOver cs r s := by
  obtain ⟨rest, hr, f, rest', hlist, hf⟩ | ⟨units, hlisted, hnone⟩ := h
  · have hne : f ≠ .exhausted := by
      rintro rfl
      cases hf
    exact Or.inl ⟨f, hf, mem_of_hear_error hr hlist hne⟩
  · obtain rfl := eq_of_listed hL hlisted
    exact Or.inr hnone

theorem exists_of_chosen (hL : ∀ c ∈ cs, L.Allows c) {r : Requirement} {q : Installable}
    {ss : List Source} (h : Chosen replay cs r q ss) :
    ∃ before s after, ss = before ++ s :: after ∧ (L s).find? (·.satisfies r) = some q ∧
      ∀ t ∈ before, L.PassedOver cs r t := by
  induction h with
  | @here s ss h =>
    obtain ⟨units, hlisted, hq⟩ := h
    obtain rfl := eq_of_listed hL hlisted
    exact ⟨[], s, ss, rfl, hq, fun t ht => by cases ht⟩
  | @later s ss hs _ ih =>
    obtain ⟨before, t, after, rfl, hq, hbefore⟩ := ih
    exact ⟨s :: before, t, after, rfl, hq,
      List.forall_mem_cons.mpr ⟨passedOver_of_lacking hL hs, hbefore⟩⟩

/-- What a search told from its calls finds is what the search order designates. -/
theorem designates_of_found (hL : ∀ c ∈ cs, L.Allows c) {u q : Installable} {r : Requirement}
    (h : Found replay cs S u r (.provider q)) : S.Designates L cs u r q :=
  exists_of_chosen hL h

theorem label_of_labelled (hD : ∀ c ∈ cs, D.Allows c) {u : Installable} {label : String}
    (h : Labelled replay cs u label) : label = D.label u := by
  obtain ⟨rest, hr, rest', hlabel⟩ := h
  unfold Access.label at hlabel
  unfold Naming.label
  cases hu : u.owner with
  | none =>
    rw [hu] at hlabel
    cases hlabel
    rfl
  | some s =>
    rw [hu] at hlabel
    simp only [bind, EStateM.bind] at hlabel
    cases hd : replay.describe s rest with
    | ok name v =>
      rw [hd] at hlabel
      cases hlabel
      obtain rfl : name = D s := hD _ (mem_of_hear_ok hr hd)
      rfl
    | error f v =>
      rw [hd] at hlabel
      cases hlabel

end Provision.Resolution
