import Mathlib.Algebra.Order.BigOperators.Group.List
import Mathlib.Algebra.Order.Ring.Nat
import Mathlib.Data.Finset.Card
import Provision.Proofs.Resolution.Accounting
import Provision.Proofs.Resolution.Breadcrumb

namespace Provision.Resolution

variable {σ : Type}

/-- What is counted in the course of a run. -/
structure Tally where
  /-- How often the loop looked at the top of the stack. -/
  iterations : Nat := 0
  /-- The frames that were put on the stack, in order. -/
  entered : List Frame := []

/-- The frames by which a stack is higher than an earlier one. -/
def pushed (before after : List Frame) : List Frame :=
  after.take (after.length - before.length)

def Tally.next (t : Tally) (c d : Config) : Tally where
  iterations := if c.stack.isEmpty then t.iterations else t.iterations + 1
  entered := t.entered ++ pushed c.stack d.stack

/-- A run passes from one moment to another, and is counted on the way. -/
inductive Counts (A : Access σ) (S : Setting) (m : Moment σ) : Tally → Moment σ → Prop where
  | start : Counts A S m {} m
  | next {t n k} (h : Counts A S m t n) (hn : Next A S n k) :
      Counts A S m (t.next n.toConfig k.toConfig) k

/-- How often the loop looks at a frame: once for each requirement, and once to leave it. -/
def Frame.turns (f : Frame) : Nat := f.unit.requires.length + 1

/-- How often it still has to look at the frames of a stack. -/
def owed (stack : List Frame) : Nat := (stack.map fun f => f.pending.length + 1).sum

/-- The tally of a run agrees with its configuration: what was entered is visited, and what the frames
cost was done or is still to be done. -/
structure Config.Tallied (c : Config) (t : Tally) : Prop where
  visited : t.entered.map Frame.unit = c.progress.state.units
  balance : t.iterations + owed c.stack = (t.entered.map Frame.turns).sum

/-- Whatever the repositories list in the course of a run is among some units. -/
def Confined (A : Access σ) (S : Setting) (requested : List Installable) (w : σ)
    (listed : List Installable) : Prop :=
  ∀ m, Passes A.recorded S (.start requested (w, [])) m → ∀ c ∈ m.world.2, c.units ⊆ listed

def releases (us : List Installable) : Finset (String × Version) :=
  (us.map fun u => (u.id, u.version)).toFinset

variable {A : Access σ} {S : Setting} {requested listed : List Installable} {w w₀ : σ}

theorem owed_cons (f : Frame) (stack : List Frame) :
    owed (f :: stack) = f.pending.length + 1 + owed stack := rfl

theorem length_le_owed (stack : List Frame) : stack.length ≤ owed stack := by
  induction stack with
  | nil => exact le_refl _
  | cons f stack ih =>
    rw [List.length_cons, owed_cons]
    omega

theorem pushed_cons {before stack : List Frame} (h : stack.length = before.length) (f : Frame) :
    pushed before (f :: stack) = [f] := by
  simp [pushed, h]

theorem pushed_of_length_le {before after : List Frame} (h : after.length ≤ before.length) :
    pushed before after = [] := by
  rw [pushed, Nat.sub_eq_zero_of_le h, List.take_zero]

theorem sum_turns (fs : List Frame) :
    (fs.map Frame.turns).sum = fs.length + (fs.map fun f => f.unit.requires.length).sum := by
  induction fs with
  | nil => rfl
  | cons f fs ih =>
    simp only [List.map_cons, List.sum_cons, List.length_cons, ih, Frame.turns]
    omega

/-- The tally still agrees after frames are put on the stack, if each turn of the loop pays for what it
takes off. -/
theorem Config.Tallied.step {c d : Config} {t : Tally} (h : c.Tallied t) (fs : List Frame)
    (hp : pushed c.stack d.stack = fs)
    (hu : d.progress.state.units = c.progress.state.units ++ fs.map Frame.unit)
    (ho : owed d.stack + (if c.stack.isEmpty then 0 else 1) = owed c.stack + (fs.map Frame.turns).sum) :
    d.Tallied (t.next c d) := by
  refine ⟨?_, ?_⟩
  · rw [Tally.next, hp, List.map_append, h.visited, hu]
  · have hbalance := h.balance
    simp only [Tally.next, hp, List.map_append, List.sum_append]
    split at ho <;> simp_all <;> omega

theorem tallied_of_move {c d : Config} {t : Tally} (h : c.Tallied t) (hm : Move A w₀ S c d) :
    d.Tallied (t.next c d) := by
  cases hm with
  | skipRoot => exact h.step [] (pushed_of_length_le (le_refl _)) (by simp) (by simp)
  | visitRoot hu =>
    exact h.step [_] (pushed_cons rfl _) (Progress.units_visited hu _) (by simp [owed, Frame.turns])
  | leave =>
    exact h.step [] (pushed_of_length_le (by simp)) (by simp) (by simp [owed_cons]; omega)
  | skip | drop | meet =>
    exact h.step [] (pushed_of_length_le (le_refl _)) (by simp [State.addResolved])
      (by simp [owed_cons]; omega)
  | fail =>
    exact h.step [] (pushed_of_length_le (le_refl _)) (by simp [State.units_addFailed])
      (by simp [owed_cons]; omega)
  | visit _ _ _ hq =>
    refine h.step [_] (pushed_cons rfl _) ?_ (by simp [owed_cons, Frame.turns]; omega)
    exact State.units_addUnit (Bool.or_eq_false_iff.mp hq).2

theorem passes_of_counts {m n : Moment σ} {t : Tally} (h : Counts A S m t n) : Passes A S m n := by
  induction h with
  | start => exact .refl
  | next _ hn ih => exact ih.tail hn

theorem tallied_of_counts {t : Tally} {m : Moment σ} (h : Counts A S (.start requested w) t m) :
    m.toConfig.Tallied t := by
  induction h with
  | start => exact ⟨rfl, rfl⟩
  | next h hn ih =>
    obtain ⟨hreach, -⟩ := moves_of_passes .start (passes_of_counts h)
    exact tallied_of_move ih (move_of_next hreach hn).2

theorem units_subset_of_confined (hc : Confined A S requested w listed) {m : Moment σ}
    (h : Passes A S (.start requested w) m) :
    m.progress.state.units ⊆ requested ++ listed := by
  obtain ⟨cs, hrec⟩ := passes_recorded h
  obtain ⟨-, hm⟩ := moves_of_passes .start (replay_of_recorded hrec)
  intro q hq
  obtain hreq | hlisted := List.mem_append.mp (mem_seen_of_moves hm hq)
  · exact List.mem_append_left _ hreq
  · obtain ⟨c, hcs, hqc⟩ := List.mem_flatMap.mp hlisted
    exact List.mem_append_right _ (hc _ hrec c hcs hqc)

theorem nodup_of_passes {m : Moment σ} (h : Passes A S (.start requested w) m) :
    (m.progress.state.units.map fun u => (u.id, u.version)).Nodup := by
  obtain ⟨-, hm⟩ := moves_of_passes .start h
  exact visited_of_passes h ▸ nodup_of_moves hm

theorem length_units_le (hc : Confined A S requested w listed) {m : Moment σ}
    (h : Passes A S (.start requested w) m) :
    m.progress.state.units.length ≤ (releases (requested ++ listed)).card := by
  have hsub : releases m.progress.state.units ⊆ releases (requested ++ listed) := by
    intro k hk
    rw [releases, List.mem_toFinset] at hk ⊢
    exact List.map_subset _ (units_subset_of_confined hc h) hk
  calc
    _ = (m.progress.state.units.map fun u => (u.id, u.version)).length := (List.length_map _).symm
    _ = (releases m.progress.state.units).card := (List.toFinset_card_of_nodup (nodup_of_passes h)).symm
    _ ≤ _ := Finset.card_le_card hsub

theorem next_or_stops (m : Moment σ) :
    (m.roots = [] ∧ m.stack = []) ∨ (∃ n, Next A S m n) ∨ ∃ f v, Stops A S m f v := by
  obtain ⟨⟨roots, p, stack⟩, w⟩ := m
  cases stack with
  | cons frame stack =>
    cases h : step A S p frame stack w with
    | ok next v => exact Or.inr (Or.inl ⟨_, .step h⟩)
    | error f v => exact Or.inr (Or.inr ⟨f, v, .step h⟩)
  | nil =>
    cases roots with
    | nil => exact Or.inl ⟨rfl, rfl⟩
    | cons u us =>
      cases h : start A S u p w with
      | ok next v => exact Or.inr (Or.inl ⟨_, .root h⟩)
      | error f v => exact Or.inr (Or.inr ⟨f, v, .root h⟩)

theorem advances_of_next {m n : Moment σ} (h : Next A S m n) (t : Tally) :
    ((t.next m.toConfig n.toConfig).iterations = t.iterations + 1 ∧ n.roots = m.roots) ∨
      ((t.next m.toConfig n.toConfig).iterations = t.iterations ∧
        n.roots.length < m.roots.length) := by
  cases h with
  | root => exact Or.inr ⟨rfl, Nat.lt_succ_self _⟩
  | step => exact Or.inl ⟨rfl, rfl⟩

theorem exists_ending {m₀ : Moment σ} {bound : Nat}
    (hbound : ∀ t m, Counts A S m₀ t m → t.iterations ≤ bound) : ∃ e, m₀.ending A S = some e := by
  -- What is left of the bound, and the units still requested, get fewer from one moment to the next.
  suffices hleft : ∀ (left : Nat) (t : Tally) (m : Moment σ), Counts A S m₀ t m →
      bound - t.iterations + m.roots.length = left → ∃ e, m.ending A S = some e from
    hleft _ _ _ .start rfl
  intro left
  induction left using Nat.strong_induction_on with
  | _ left ih =>
    intro t m hm hleft
    obtain ⟨hroots, hstack⟩ | ⟨n, hn⟩ | ⟨f, v, hs⟩ := next_or_stops (A := A) (S := S) m
    · obtain ⟨⟨roots, p, stack⟩, v⟩ := m
      obtain rfl : roots = [] := hroots
      obtain rfl : stack = [] := hstack
      exact ⟨_, ending_finished p v⟩
    · have hnext := hm.next hn
      have hle := hbound _ _ hnext
      rw [ending_of_next hn]
      refine ih _ ?_ _ n hnext rfl
      obtain ⟨hi, hr⟩ | ⟨hi, hr⟩ := advances_of_next hn t
      · rw [hi] at hle ⊢
        rw [hr]
        omega
      · rw [hi]
        omega
    · exact ⟨_, ending_of_stops hs⟩

theorem iterations_eq {t : Tally} {m : Moment σ} (h : Counts A S (.start requested w) t m) :
    t.iterations + owed m.stack =
      t.entered.length + (t.entered.map fun f => f.unit.requires.length).sum :=
  (tallied_of_counts h).balance.trans (sum_turns _)

theorem length_entered {t : Tally} {m : Moment σ} (h : Counts A S (.start requested w) t m) :
    t.entered.length = m.progress.state.units.length := by
  rw [← (tallied_of_counts h).visited, List.length_map]

theorem exists_bound (hc : Confined A S requested w listed) :
    ∃ bound, ∀ t m, Counts A S (.start requested w) t m → t.iterations ≤ bound := by
  let most := ((requested ++ listed).map fun u => u.requires.length).sum
  refine ⟨(releases (requested ++ listed)).card * (1 + most), fun t m h => ?_⟩
  have hfew : t.entered.length ≤ (releases (requested ++ listed)).card :=
    length_entered h ▸ length_units_le hc (passes_of_counts h)
  have heach : ∀ k ∈ t.entered.map fun f => f.unit.requires.length, k ≤ most := by
    intro k hk
    obtain ⟨f, hf, rfl⟩ := List.mem_map.mp hk
    have hunit : f.unit ∈ m.progress.state.units :=
      (tallied_of_counts h).visited ▸ List.mem_map_of_mem hf
    have hcovered := units_subset_of_confined hc (passes_of_counts h) hunit
    exact List.le_sum_of_mem (List.mem_map.mpr ⟨f.unit, hcovered, rfl⟩)
  have hsum := List.sum_le_card_nsmul _ _ heach
  rw [List.length_map, Nat.nsmul_eq_mul] at hsum
  calc
    t.iterations ≤ t.entered.length + (t.entered.map fun f => f.unit.requires.length).sum := by
      have hiterations := iterations_eq h
      omega
    _ ≤ t.entered.length + t.entered.length * most := by omega
    _ = t.entered.length * (1 + most) := by rw [Nat.mul_add, Nat.mul_one]
    _ ≤ _ := Nat.mul_le_mul_right _ hfew

theorem exists_resolveAll (hc : Confined A S requested w listed) :
    ∃ e, resolveAll A S requested {} w = some e := by
  obtain ⟨bound, hbound⟩ := exists_bound hc
  obtain ⟨e, he⟩ := exists_ending hbound
  exact ⟨e, ending_roots requested {} w ▸ he⟩

/-- Repositories that list none but certain units in any world that reading can lead to confine a
run. -/
theorem confined_of_reaches
    (h : ∀ ⦃v⦄, Reaches A w v → ∀ ⦃s units v'⦄, A.list s v = .ok units v' → units ⊆ listed) :
    Confined A S requested w listed := by
  intro m hm c hc
  obtain ⟨v, hv, hanswer⟩ := (heard_of_passes hm).2 c hc
  obtain ⟨q, answer⟩ := c
  cases answer with
  | error f => cases q <;> exact List.nil_subset _
  | ok a =>
    obtain ⟨v', h'⟩ := exists_of_answerOf_eq_ok hanswer
    cases q with
    | list s => exact h hv h'
    | materialize u | describe s => exact List.nil_subset _

theorem confined_of_resembles {w : Workspace} (hw : w.Resembles w) :
    Confined Operation.access S requested w
      (w.repositories.toList.flatMap Repository.declared) := by
  refine confined_of_reaches fun v hv s units v' hlist => ?_
  obtain rfl := (Workspace.resembles_of_reaches hv hw).eq_listing hlist
  exact Workspace.listing_subset w s

/-- A run over repositories that list finitely many units ends, whatever they require. No id and
version is entered twice, so there are at most as many frames as there are ids and versions among the
requested and the listed units; the loop turns once for each frame and once for each requirement of an
entered unit, those turns included that the frames on the stack still owe. -/
theorem ends_of_confined (hc : Confined A S requested w listed) :
    (∃ e, resolveAll A S requested {} w = some e) ∧
    ∀ t m, Counts A S (.start requested w) t m →
      (t.entered.map fun f => (f.unit.id, f.unit.version)).Nodup ∧
      t.entered.length ≤ (releases (requested ++ listed)).card ∧
      t.iterations + m.stack.length ≤
        t.entered.length + (t.entered.map fun f => f.unit.requires.length).sum := by
  refine ⟨exists_resolveAll hc, fun t m h => ⟨?_, ?_, ?_⟩⟩
  · have hnodup := nodup_of_passes (passes_of_counts h)
    rwa [← (tallied_of_counts h).visited, List.map_map] at hnodup
  · rw [length_entered h]
    exact length_units_le hc (passes_of_counts h)
  · have hiterations := iterations_eq h
    have hstack := length_le_owed m.stack
    omega

namespace Sample

def ring : Workspace where
  repositories := #[memory "first"
    [unit first "a" [needs "b"] [], unit first "b" [needs "a", needs "b"] []]]

end Sample

open Sample in
theorem ends_of_ring :
    Confined Operation.access ⟨[first], .full⟩ [unit first "a" [needs "b"] []] ring
        (ring.repositories.toList.flatMap Repository.declared) ∧
      (∃ e, resolveAll Operation.access ⟨[first], .full⟩ [unit first "a" [needs "b"] []] {} ring =
        some e) ∧
      ∀ t m, Counts Operation.access ⟨[first], .full⟩
          (.start [unit first "a" [needs "b"] []] ring) t m →
        (t.entered.map fun f => (f.unit.id, f.unit.version)).Nodup ∧
        t.entered.length ≤ (releases ([unit first "a" [needs "b"] []] ++
          ring.repositories.toList.flatMap Repository.declared)).card ∧
        t.iterations + m.stack.length ≤
          t.entered.length + (t.entered.map fun f => f.unit.requires.length).sum := by
  have hmemory : ring.Resembles ring := .refl_of_inMemory (by simp [ring, inMemory_memory])
  have hc : Confined Operation.access ⟨[first], .full⟩ [unit first "a" [needs "b"] []] ring
      (ring.repositories.toList.flatMap Repository.declared) := confined_of_resembles hmemory
  exact ⟨hc, ends_of_confined hc⟩

end Provision.Resolution
