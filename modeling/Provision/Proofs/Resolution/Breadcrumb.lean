import Provision.Proofs.Resolution.Failing
import Provision.Proofs.Resolution.Provenance
import Provision.Proofs.Workspace.Failures

namespace Provision.Resolution

/-- The second unit is reached from the first over some requirements, each with the unit that the
search order designates for it. -/
inductive Leads (S : Setting) (L : Listing) (cs : List Call) (u : Installable) :
    List (Requirement × Installable) → Installable → Prop where
  | start : Leads S L cs u [] u
  | onward {hops v r q} (h : Leads S L cs u hops v) (hr : r ∈ v.requires)
      (hq : S.Designates L cs v r q) : Leads S L cs u (hops ++ [(r, q)]) q

/-- The labels of the units on a way, with the names of the requirements between them. -/
def Naming.breadcrumb (D : Naming) (u : Installable) (hops : List (Requirement × Installable)) :
    String :=
  hops.foldl (fun path (r, q) => path ++ " -> " ++ r.name ++ " -> " ++ D.label q) (D.label u)

/-- A path tells how a unit was reached from a requested one. -/
def Tracked (S : Setting) (L : Listing) (D : Naming) (cs : List Call)
    (requested : List Installable) (v : Installable) (path : String) : Prop :=
  ∃ u ∈ requested, ∃ hops, Leads S L cs u hops v ∧ path = D.breadcrumb u hops

/-- A repository does not itself report an unresolved requirement when it is asked for its name or
for the contents of a unit. -/
def Call.Plain : Call → Prop
  | ⟨.materialize _, .error (.unresolved _ _)⟩ => False
  | ⟨.describe _, .error (.unresolved _ _)⟩ => False
  | _ => True

variable {σ : Type} {A : Access σ} {S : Setting} {requested : List Installable} {cs : List Call}
  {L : Listing} {D : Naming} {path : String} {r : Requirement}

theorem Tracked.root {u : Installable} (hu : u ∈ requested) :
    Tracked S L D cs requested u (D.label u) :=
  ⟨u, hu, [], .start, rfl⟩

theorem Tracked.onward {v q : Installable} (h : Tracked S L D cs requested v path)
    (hr : r ∈ v.requires) (hq : S.Designates L cs v r q) :
    Tracked S L D cs requested q (path ++ " -> " ++ r.name ++ " -> " ++ D.label q) := by
  obtain ⟨u, hu, hops, hleads, rfl⟩ := h
  refine ⟨u, hu, hops ++ [(r, q)], hleads.onward hr hq, ?_⟩
  rw [Naming.breadcrumb, Naming.breadcrumb, List.foldl_append]
  rfl

theorem tracked_of_moves (hL : ∀ c ∈ cs, L.Allows c) (hD : ∀ c ∈ cs, D.Allows c) {d : Config}
    (h : Moves replay cs S ⟨requested, {}, []⟩ d) :
    ∀ f ∈ d.stack, Tracked S L D cs requested f.unit f.path := by
  induction h with
  | refl =>
    intro f hf
    cases hf
  | tail hc hm ih =>
    have hroots := roots_subset_of_moves hc
    have hattended := (sound_of_moves hc).attended
    cases hm with
    | skipRoot => exact ih
    | visitRoot hu hs hl =>
      refine List.forall_mem_cons.mpr ⟨?_, ih⟩
      obtain rfl := label_of_labelled hD hl
      exact .root (hroots List.mem_cons_self)
    | leave => exact (List.forall_mem_cons.mp ih).2
    | skip | drop | fail | meet => exact List.forall_mem_cons.mpr (List.forall_mem_cons.mp ih)
    | visit _ _ hfound _ _ hl =>
      -- The new frame is one hop further than the one on top of which it comes.
      obtain ⟨htop, hrest⟩ := List.forall_mem_cons.mp ih
      refine List.forall_mem_cons.mpr ⟨?_, List.forall_mem_cons.mpr ⟨htop, hrest⟩⟩
      obtain rfl := label_of_labelled hD hl
      exact htop.onward hattended.top.2 (designates_of_found hL hfound)

/-- An unresolved requirement is missing, so a repository that cannot be read for one would be passed
over. -/
theorem not_broken_of_plain {U : Installable → Prop} (hplain : ∀ c ∈ cs, c.Plain) :
    ¬Broken replay cs S U (.unresolved path r) := by
  have hne : Failure.unresolved path r ≠ .exhausted := nofun
  rintro (⟨-, -, hf⟩ | ⟨hw, -, h, -⟩ | ⟨hw, h⟩)
  · cases hf
  · exact hplain _ (mem_of_hear_error hw h hne)
  · exact hplain _ (mem_of_hear_error hw h hne)

theorem Setting.mem_searched_of_full (hS : S.mode = .full) (hr : r.optional = false)
    {u : Installable} {s : Source}
    (h : u.owner = some s ∨ s ∈ S.repositories ∧ u.owner.any s.same = false) :
    s ∈ S.searched u r := by
  unfold searched
  cases hu : u.owner with
  | none =>
    rw [hu] at h
    obtain h | ⟨hs, -⟩ := h
    · cases h
    · exact hs
  | some t =>
    rw [hu] at h
    simp only [hS, hr]
    obtain h | ⟨hs, hsame⟩ := h
    · cases h
      exact List.mem_cons_self
    · exact List.mem_cons_of_mem _ (List.mem_filter.mpr ⟨hs, by simpa using hsame⟩)

/-- A run that reports an unresolved requirement is one in full mode, and the requirement is mandatory.
The path is that of the unit that declares it. No visited unit has anything for it, nor has the unit's
own repository or a configured one of another identity, if it could be read. -/
theorem tracked_of_unresolved {w w' : σ}
    (h : resolve A S requested w = .error (.unresolved path r) w')
    (hL : ∀ c ∈ calls A S requested w, L.Allows c) (hD : ∀ c ∈ calls A S requested w, D.Allows c)
    (hplain : ∀ c ∈ calls A S requested w, c.Plain) :
    S.mode = .full ∧ r.optional = false ∧
      ∃ u ∈ requested, ∃ hops v, Leads S L (calls A S requested w) u hops v ∧
        path = D.breadcrumb u hops ∧ r ∈ v.requires ∧
        (∃ m, Passes A S (.start requested w) m ∧ Stops A S m (.unresolved path r) w' ∧
          (∃ rs stack, m.stack = ⟨v, path, r :: rs⟩ :: stack) ∧
          ∀ q ∈ m.progress.state.units, q.satisfies r = false) ∧
        ∀ s, v.owner = some s ∨ s ∈ S.repositories ∧ v.owner.any s.same = false →
          L.PassedOver (calls A S requested w) r s := by
  obtain ⟨m, hp, hstops, rest, hreplay, hrstops⟩ := replay_of_failure h nofun
  obtain ⟨hreach, hm⟩ := moves_of_passes .start hreplay
  obtain hbroken | ⟨⟨v, place, pending⟩, stack, q, rs, hstack, hpending, hopen, hunmet⟩ :=
    broken_or_unmet_of_stops hreach hrstops
  · exact absurd hbroken (not_broken_of_plain hplain)
  · obtain ⟨heq, hS, hr, hlack⟩ := hunmet
    obtain ⟨rfl, rfl⟩ : path = place ∧ r = q := Failure.unresolved.inj heq
    obtain rfl : pending = r :: rs := hpending
    have hf : ⟨v, path, r :: rs⟩ ∈ m.stack := hstack ▸ List.mem_cons_self
    obtain ⟨u, hu, hops, hleads, hpath⟩ := tracked_of_moves hL hD hm _ hf
    obtain ⟨-, hsuf⟩ := (sound_of_moves hm).attended.entered _ hf
    refine ⟨hS, hr, u, hu, hops, v, hleads, hpath, hsuf.subset List.mem_cons_self,
      ⟨m, hp, hstops, ⟨rs, stack, hstack⟩, fun q hq => ?_⟩, fun s hs => ?_⟩
    · exact State.satisfies_of_isResolved_eq_false hopen hq
    · have hsearched := Setting.mem_searched_of_full hS hr hs
      exact passedOver_of_lacking hL (hlack s hsearched)

theorem plain_of_calls {w : Workspace} {c : Call}
    (hc : c ∈ calls Operation.access S requested w) : c.Plain := by
  obtain ⟨v, -, hanswer⟩ := heard_calls hc
  obtain ⟨q, answer⟩ := c
  cases answer with
  | ok a => cases q <;> trivial
  | error f =>
    obtain ⟨v', h⟩ := exists_of_answerOf_eq_error hanswer
    cases q with
    | list s => trivial
    | materialize u => obtain rfl | rfl | ⟨_, _, rfl⟩ := Operation.of_materialize h <;> trivial
    | describe s =>
      obtain rfl := Operation.eq_numeral_of_describe h
      trivial

namespace Sample

def needs (id : String) : Requirement := { namespaceName := unitNamespace, name := id }

def needy : Installable := unit first "a" [needs "c", needs "b"] []

def fallback : Setting := ⟨[first, second], .full⟩

def between : Installable := unit second "b" [asks "p"] []

def broken : Workspace where
  repositories := #[memory "first" [needy, unit first "c" [] []], memory "second" [between]]

def lower : Source := ⟨.memory "twin", 0⟩

def upper : Source := ⟨.memory "twin", 1⟩

def asker : Installable := unit lower "asker" [asks "p"] []

def twin : Workspace where
  repositories := #[memory "twin" [asker], memory "twin" [library upper]]

def shut : Workspace where
  repositories := #[{ memory "twin" [asker, library lower] with isOffline := true }]

end Sample

open Sample

theorem resolve_broken :
    ∃ w', resolve Operation.access fallback [needy] broken =
      .error (.unresolved "a[first] -> b -> b[second]" (asks "p")) w' :=
  resolve_of_failureWithin? (n := 10) rfl

theorem steady_broken : Steady Operation.access broken broken.listing broken.naming :=
  Workspace.steady_of_resembles (.refl_of_inMemory (by simp [broken, inMemory_memory]))

/-- A unit without requirements and one from the other repository are visited before the package is
found missing. -/
theorem tracked_of_unresolved_broken :
    ∃ w', resolve Operation.access fallback [needy] broken =
        .error (.unresolved "a[first] -> b -> b[second]" (asks "p")) w' ∧
      (∀ c ∈ calls Operation.access fallback [needy] broken, broken.listing.Allows c) ∧
      (∀ c ∈ calls Operation.access fallback [needy] broken, broken.naming.Allows c) ∧
      (∀ c ∈ calls Operation.access fallback [needy] broken, c.Plain) ∧
      fallback.mode = .full ∧ (asks "p").optional = false ∧
      ∃ u ∈ [needy], ∃ hops v, Leads fallback broken.listing
          (calls Operation.access fallback [needy] broken) u hops v ∧
        "a[first] -> b -> b[second]" = broken.naming.breadcrumb u hops ∧ asks "p" ∈ v.requires ∧
        (∃ m, Passes Operation.access fallback (.start [needy] broken) m ∧
          Stops Operation.access fallback m
            (.unresolved "a[first] -> b -> b[second]" (asks "p")) w' ∧
          (∃ rs stack, m.stack = ⟨v, "a[first] -> b -> b[second]", asks "p" :: rs⟩ :: stack) ∧
          ∀ q ∈ m.progress.state.units, q.satisfies (asks "p") = false) ∧
        ∀ s, v.owner = some s ∨ s ∈ fallback.repositories ∧ v.owner.any s.same = false →
          broken.listing.PassedOver (calls Operation.access fallback [needy] broken)
            (asks "p") s := by
  obtain ⟨w', h⟩ := resolve_broken
  have hL : ∀ c ∈ calls Operation.access fallback [needy] broken, broken.listing.Allows c :=
    fun c hc => steady_broken.allows_listing hc
  have hD : ∀ c ∈ calls Operation.access fallback [needy] broken, broken.naming.Allows c :=
    fun c hc => steady_broken.allows_naming hc
  have hplain : ∀ c ∈ calls Operation.access fallback [needy] broken, c.Plain :=
    fun c hc => plain_of_calls hc
  exact ⟨w', h, hL, hD, hplain, tracked_of_unresolved h hL hD hplain⟩

/-- What a run reports as unresolved is in no configured repository that can always be read. -/
def ConfiguredLack (w : Workspace) (S : Setting) (requested : List Installable) : Prop :=
  ∀ path r w', resolve Operation.access S requested w = .error (.unresolved path r) w' →
    ∀ s ∈ S.repositories, ¬Offering Operation.access w s r

/-- What a run reports as unresolved is not in the repository of the unit that declares it. -/
def OwnLack (w : Workspace) (S : Setting) (requested : List Installable) : Prop :=
  ∀ path r w', resolve Operation.access S requested w = .error (.unresolved path r) w' →
    ∃ u ∈ requested, ∃ hops v,
      Leads S w.listing (calls Operation.access S requested w) u hops v ∧
      path = w.naming.breadcrumb u hops ∧ r ∈ v.requires ∧
      ∀ s, v.owner = some s → ∀ q ∈ w.listing s, q.satisfies r = false

theorem resolve_twin :
    ∃ w', resolve Operation.access ⟨[lower, upper], .full⟩ [asker] twin =
      .error (.unresolved "asker[twin]" (asks "p")) w' :=
  resolve_of_failureWithin? (n := 10) rfl

theorem resolve_shut :
    ∃ w', resolve Operation.access ⟨[lower], .full⟩ [asker] shut =
      .error (.unresolved "asker[twin]" (asks "p")) w' :=
  resolve_of_failureWithin? (n := 10) rfl

theorem offering_twin : Offering Operation.access twin upper (asks "p") := by
  refine offering_of_holds ⟨_, rfl, ⟨_, rfl⟩, rfl, rfl, fun _ h => by cases h⟩ ?_
  decide +kernel

/-- Every unit on a way from the one that asks belongs to the repository that cannot be read. -/
theorem owner_of_leads_shut {S : Setting} {hops : List (Requirement × Installable)}
    {v : Installable} (h : Leads S shut.listing cs asker hops v) : v.owner = some lower := by
  cases h with
  | start => rfl
  | onward _ _ hq =>
    obtain ⟨-, s, -, -, hfind, -⟩ := hq
    obtain ⟨r, hr, hv⟩ := Workspace.exists_of_mem_listing (List.mem_of_find?_eq_some hfind)
    obtain rfl : r = { memory "twin" [asker, library lower] with isOffline := true } := by
      simpa [shut] using hr
    obtain rfl | rfl : v = asker ∨ v = library lower := by simpa [memory] using hv
    · rfl
    · rfl

/-- A repository of the identity of the own one is not searched, and the own one is not either where
it cannot be read. -/
theorem unresolved_provided :
    (Steady Operation.access twin twin.listing twin.naming ∧
      ¬ConfiguredLack twin ⟨[lower, upper], .full⟩ [asker]) ∧
    (Steady Operation.access shut shut.listing shut.naming ∧
      ¬OwnLack shut ⟨[lower], .full⟩ [asker]) := by
  refine ⟨⟨?_, fun hall => ?_⟩, ?_, fun hall => ?_⟩
  · exact Workspace.steady_of_resembles (.refl_of_inMemory (by simp [twin, inMemory_memory]))
  · obtain ⟨w', h⟩ := resolve_twin
    exact hall _ _ w' h upper (by simp) offering_twin
  · exact Workspace.steady_of_resembles (.refl_of_inMemory (by
      simp only [shut, List.mem_toArray, List.mem_singleton, forall_eq]
      exact ⟨⟨"twin", rfl⟩, nofun⟩))
  · obtain ⟨w', h⟩ := resolve_shut
    obtain ⟨u, hu, hops, v, hleads, -, -, hnone⟩ := hall _ _ w' h
    obtain rfl := List.mem_singleton.mp hu
    have hlack := hnone lower (owner_of_leads_shut hleads) (library lower)
      (List.mem_cons_of_mem _ List.mem_cons_self)
    have hsome : (library lower).satisfies (asks "p") = true := by decide +kernel
    rw [hsome] at hlack
    cases hlack

end Provision.Resolution
