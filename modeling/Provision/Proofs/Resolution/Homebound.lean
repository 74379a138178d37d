import Provision.Proofs.Resolution.Accounting
import Provision.Proofs.Resolution.Correspondence
import Provision.Proofs.Resolution.Probing

namespace Provision.Resolution

variable {σ : Type}

/-- What the known repositories list is owned by them: each unit by the repository that lists it. -/
def Homed (A : Access σ) (w₀ : σ) (known : Source → Prop) : Prop :=
  ∀ s, known s → ∀ units, Listed A w₀ s units → ∀ q ∈ units,
    ∃ t, q.owner = some t ∧ known t ∧ t.identity = s.identity

def Housed (known : Source → Prop) (i : Identity) (u : Installable) : Prop :=
  ∃ s, u.owner = some s ∧ known s ∧ s.identity = i

def Inherited (A : Access σ) (w₀ : σ) (S : Setting) (Q : Installable → Prop) : Prop :=
  ∀ u, Q u → ∀ r q, Found A w₀ S u r (.provider q) → Q q

/-- The units that are requested or on the way have a property. -/
structure Config.Kindred (Q : Installable → Prop) (c : Config) : Prop where
  roots : ∀ u ∈ c.roots, Q u
  stack : ∀ f ∈ c.stack, Q f.unit

/-- Requested units are visited one after the other, with the units that each of them adds. -/
inductive Traversals (A : Access σ) (S : Setting) :
    List Installable → Progress → σ → List (List Installable) → Progress → σ → Prop where
  | nil {p w} : Traversals A S [] p w [] p w
  | cons {u us p q p' w v w' part parts} (h : resolveUnit A S u p w = some (.ok q v))
      (hpart : q.state.units = p.state.units ++ part) (hrest : Traversals A S us q v parts p' w') :
      Traversals A S (u :: us) p w (part :: parts) p' w'

variable {A : Access σ} {w₀ : σ} {S : Setting} {known : Source → Prop} {Q : Installable → Prop}

theorem inherited_housed (hS : S.mode = .slice) (h : Homed A w₀ known) (i : Identity) :
    Inherited A w₀ S (Housed known i) := by
  rintro u ⟨s, hs, hknown, rfl⟩ r q hq
  have hchosen : Chosen A w₀ r q [s] := by
    rwa [Found, Setting.searched_of_slice hs hS] at hq
  obtain ⟨t, ht, units, hlisted, hfind⟩ := hchosen.exists_offered
  obtain rfl := List.mem_singleton.mp ht
  exact h t hknown units hlisted q (List.mem_of_find?_eq_some hfind)

theorem Config.Kindred.move (hQ : Inherited A w₀ S Q) {c d : Config} (h : Move A w₀ S c d)
    (hc : c.Kindred Q) :
    d.Kindred Q ∧ ∃ part, d.progress.state.units = c.progress.state.units ++ part ∧
      ∀ q ∈ part, Q q := by
  refine ⟨⟨fun u hu => ?_, fun f hf => ?_⟩, ?_⟩
  · exact hc.roots u (roots_subset_of_move h hu)
  · obtain ⟨g, hg, hgf⟩ | hroot | ⟨g, hg, r, -, hfound⟩ := unit_of_move h hf
    · exact hgf ▸ hc.stack g hg
    · exact hc.roots _ hroot
    · exact hQ _ (hc.stack g hg) r _ hfound
  · obtain hsame | ⟨q, hunits, hq⟩ := units_of_move h
    · exact ⟨[], by rw [hsame, List.append_nil], List.forall_mem_nil _⟩
    · refine ⟨[q], hunits, List.forall_mem_singleton.mpr ?_⟩
      obtain hroot | ⟨g, hg, r, -, hfound⟩ := hq
      · exact hc.roots q hroot
      · exact hQ _ (hc.stack g hg) r q hfound

theorem Config.Kindred.moves (hQ : Inherited A w₀ S Q) {c d : Config} (h : Moves A w₀ S c d)
    (hc : c.Kindred Q) :
    d.Kindred Q ∧ ∃ part, d.progress.state.units = c.progress.state.units ++ part ∧
      ∀ q ∈ part, Q q := by
  induction h with
  | refl => exact ⟨hc, [], (List.append_nil _).symm, List.forall_mem_nil _⟩
  | tail _ hmove ih =>
    obtain ⟨hkin, before, hbefore, hold⟩ := ih
    obtain ⟨hkin', part, hpart, hnew⟩ := hkin.move hQ hmove
    refine ⟨hkin', before ++ part, ?_, List.forall_mem_append.mpr ⟨hold, hnew⟩⟩
    rw [hpart, hbefore, List.append_assoc]

theorem Traversals.units {us : List Installable} {p p' : Progress} {w w' : σ}
    {parts : List (List Installable)} (h : Traversals A S us p w parts p' w') :
    p'.state.units = p.state.units ++ parts.flatten := by
  induction h with
  | nil => exact (List.append_nil _).symm
  | cons _ hpart _ ih => rw [ih, hpart, List.flatten_cons, List.append_assoc]

/-- What visiting a requested unit adds is all of one kind. -/
theorem exists_part (hQ : Inherited A w₀ S Q) {u : Installable} (hu : Q u) {p q : Progress}
    {w v : σ} (hw : Reaches A w₀ w) (h : resolveUnit A S u p w = some (.ok q v)) :
    Reaches A w₀ v ∧ ∃ part, q.state.units = p.state.units ++ part ∧ ∀ x ∈ part, Q x := by
  have hall : resolveAll A S [u] p w = some (.ok q v) := by
    rw [resolveAll_cons, h]
    rfl
  have harrive : Passes A S ⟨⟨[u], p, []⟩, w⟩ ⟨⟨[], q, []⟩, v⟩ := arrives_of_resolveAll hall
  obtain ⟨hv, hmoves⟩ := moves_of_passes hw harrive
  have hkin : Config.Kindred Q ⟨[u], p, []⟩ := ⟨List.forall_mem_singleton.mpr hu, nofun⟩
  exact ⟨hv, (hkin.moves hQ hmoves).2⟩

/-- All that a requested unit leads to is owned by its repository. -/
theorem exists_traversals (hS : S.mode = .slice) (h : Homed A w₀ known)
    {us : List Installable} (hus : ∀ u ∈ us, ∃ i, Housed known i u) {p p' : Progress} {w w' : σ}
    (hw : Reaches A w₀ w) (hall : resolveAll A S us p w = some (.ok p' w')) :
    ∃ parts, Traversals A S us p w parts p' w' ∧
      List.Forall₂ (fun u part => ∀ q ∈ part, ∃ i, Housed known i u ∧ Housed known i q)
        us parts := by
  induction us generalizing p w with
  | nil =>
    cases hall
    exact ⟨[], .nil, .nil⟩
  | cons u us ih =>
    obtain ⟨⟨i, hi⟩, hus⟩ := List.forall_mem_cons.mp hus
    rw [resolveAll_cons] at hall
    cases hu : resolveUnit A S u p w with
    | none =>
      rw [hu] at hall
      cases hall
    | some e =>
      rw [hu] at hall
      cases e with
      | error f v => cases hall
      | ok q v =>
        obtain ⟨hv, part, hpart, hkin⟩ := exists_part (inherited_housed hS h i) hi hw hu
        obtain ⟨parts, hrest, hparts⟩ := ih hus hv hall
        exact ⟨part :: parts, .cons hu hpart hrest, .cons (fun q hq => ⟨i, hi, hkin q hq⟩) hparts⟩

/-- The search for a requirement of an owned unit does not depend on the configured repositories. -/
theorem search_of_slice {u : Installable} {s : Source} (hu : u.owner = some s) (rs ts : List Source)
    (r : Requirement) (path : String) :
    search A ⟨rs, .slice⟩ r u path = search A ⟨ts, .slice⟩ r u path := by
  unfold search
  rw [hu]
  simp only [↓reduceIte]

theorem alike_of_mode (A : Access σ) (rs ts : List Source) (mode : IncludeMode) :
    Alike (fun _ => True) Eq A ⟨rs, mode⟩ A ⟨ts, mode⟩ where
  back _ _ _ := trivial
  note _ _ _ h := congrArg _ h
  label _ := mirrors_refl _
  contents _ := mirrors_refl _

variable {requested : List Installable} {w : σ}

theorem housed_of_passes (hS : S.mode = .slice) (h : Homed A w known)
    (hreq : ∀ u ∈ requested, ∃ s, u.owner = some s ∧ known s) {m : Moment σ}
    (hm : Passes A S (.start requested w) m) : ∀ f ∈ m.stack, ∃ i, Housed known i f.unit := by
  have hQ : Inherited A w S fun u => ∃ i, Housed known i u := by
    rintro u ⟨i, hi⟩ r q hq
    exact ⟨i, inherited_housed hS h i u hi r q hq⟩
  have hstart : Config.Kindred (fun u => ∃ i, Housed known i u) ⟨requested, {}, []⟩ := by
    refine ⟨fun u hu => ?_, nofun⟩
    obtain ⟨s, hs, hknown⟩ := hreq u hu
    exact ⟨s.identity, s, hs, hknown, rfl⟩
  exact (hstart.moves hQ (moves_of_passes .start hm).2).1.stack

/-- A run in slice mode for owned units, over repositories that list what they own, has the same
outcome whatever repositories are configured. What comes next at any of its moments probes no
repository but the owner of a visited unit. And if it returns, each unit of the result was added on
the way from a requested unit of the same repository. -/
theorem homebound_of_slice (h : Homed A w known)
    (hreq : ∀ u ∈ requested, ∃ s, u.owner = some s ∧ known s) (rs : List Source) :
    (∀ ts, resolve A ⟨ts, .slice⟩ requested w = resolve A ⟨rs, .slice⟩ requested w) ∧
    (∀ m, Passes A ⟨rs, .slice⟩ (.start requested w) m →
      ∀ s ∈ probed (m.asks A ⟨rs, .slice⟩), ∃ u ∈ m.progress.state.units, u.owner = some s) ∧
    ∀ R w', resolve A ⟨rs, .slice⟩ requested w = .ok R w' →
      ∃ p v parts, R = p.result .slice ∧
        Traversals A ⟨rs, .slice⟩ requested {} w parts p v ∧ R.units.items = parts.flatten ∧
        List.Forall₂ (fun u part => ∀ q ∈ part,
          q.owner.map Source.identity = u.owner.map Source.identity) requested parts := by
  refine ⟨fun ts => ?_, fun m hm s hs => ?_, fun R w' hR => ?_⟩
  · refine eq_of_sameEnd ((alike_of_mode A rs ts .slice).resolve rfl (fun m hm f hf r _ => ?_) rfl)
    obtain ⟨-, s, hs, -, -⟩ := housed_of_passes rfl h hreq hm f hf
    rw [search_of_slice hs rs ts]
    exact mirrors_refl _
  · obtain ⟨f, stack, r, rest, hstack, -, hsearched⟩ := probed_asks hs
    have hf : f ∈ m.stack := hstack ▸ List.mem_cons_self
    obtain ⟨-, t, ht, -, -⟩ := housed_of_passes rfl h hreq hm f hf
    rw [Setting.searched_of_slice ht rfl] at hsearched
    obtain rfl := List.mem_singleton.mp hsearched
    exact ⟨f.unit, ((sound_of_passes hm).attended.entered f hf).1, ht⟩
  · obtain ⟨p, v, rfl, -, hall, hp⟩ := passes_of_resolve hR
    have hhoused : ∀ u ∈ requested, ∃ i, Housed known i u := by
      intro u hu
      obtain ⟨s, hs, hknown⟩ := hreq u hu
      exact ⟨s.identity, s, hs, hknown, rfl⟩
    obtain ⟨parts, htraversals, hparts⟩ := exists_traversals rfl h hhoused .start hall
    refine ⟨p, v, parts, rfl, htraversals, ?_, hparts.imp fun u part hpart q hq => ?_⟩
    · exact (visited_of_passes hp).trans (htraversals.units.trans (List.nil_append _))
    · obtain ⟨i, ⟨s, hs, -, hi⟩, t, ht, -, hj⟩ := hpart q hq
      rw [hs, ht, Option.map_some, Option.map_some, hi, hj]

open Sample Operation

theorem homed_of_resembles {w : Workspace} (hw : w.Resembles w)
    (h : ∀ s, known s → ∀ q ∈ w.listing s,
      ∃ t, q.owner = some t ∧ known t ∧ t.identity = s.identity) : Homed access w known := by
  rintro s hs units ⟨v, hv, v', hlist⟩
  obtain rfl := (Workspace.resembles_of_reaches hv hw).eq_listing hlist
  exact h s hs

theorem homed_apart : Homed access apart (· ∈ [first, second]) := by
  refine homed_of_resembles (.refl_of_inMemory (by simp [apart, inMemory_memory])) ?_
  refine List.forall_mem_cons.mpr ⟨?_, List.forall_mem_singleton.mpr ?_⟩
  · exact List.forall_mem_singleton.mpr ⟨first, rfl, List.mem_cons_self, rfl⟩
  · have hmem : second ∈ [first, second] := List.mem_cons_of_mem _ List.mem_cons_self
    exact List.forall_mem_cons.mpr ⟨⟨second, rfl, hmem, rfl⟩,
      List.forall_mem_singleton.mpr ⟨second, rfl, hmem, rfl⟩⟩

/-- One unit fails although the other repository has what it needs, which the other unit finds. -/
theorem homebound_of_apart :
    (∃ R w', resolve access ⟨[second], .slice⟩ [plain, rich] apart = .ok R w') ∧
    Homed access apart (· ∈ [first, second]) ∧
    (∀ u ∈ [plain, rich], ∃ s, u.owner = some s ∧ s ∈ [first, second]) ∧
    (∀ ts, resolve access ⟨ts, .slice⟩ [plain, rich] apart =
      resolve access ⟨[second], .slice⟩ [plain, rich] apart) ∧
    (∀ m, Passes access ⟨[second], .slice⟩ (.start [plain, rich] apart) m →
      ∀ s ∈ probed (m.asks access ⟨[second], .slice⟩),
        ∃ u ∈ m.progress.state.units, u.owner = some s) ∧
    ∀ R w', resolve access ⟨[second], .slice⟩ [plain, rich] apart = .ok R w' →
      ∃ p v parts, R = p.result .slice ∧
        Traversals access ⟨[second], .slice⟩ [plain, rich] {} apart parts p v ∧
        R.units.items = parts.flatten ∧
        List.Forall₂ (fun u part => ∀ q ∈ part,
          q.owner.map Source.identity = u.owner.map Source.identity) [plain, rich] parts := by
  have hreq : ∀ u ∈ [plain, rich], ∃ s, u.owner = some s ∧ s ∈ [first, second] :=
    List.forall_mem_cons.mpr ⟨⟨first, rfl, List.mem_cons_self⟩, List.forall_mem_singleton.mpr
      ⟨second, rfl, List.mem_cons_of_mem _ List.mem_cons_self⟩⟩
  have hreturns : ∃ w', resolve access ⟨[second], .slice⟩ [plain, rich] apart =
      .ok ⟨.slice, ⟨[plain, rich]⟩, {}, {}, [asks "p"]⟩ w' :=
    resolve_of_resultWithin? (n := 10) rfl
  exact ⟨⟨_, hreturns⟩, homed_apart, hreq, homebound_of_slice homed_apart hreq [second]⟩

end Provision.Resolution
