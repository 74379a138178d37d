import Mathlib.Order.Lattice
import Provision.Proofs.Collection
import Provision.Proofs.Resolution.State

namespace Provision.Resolution

inductive Status where
  | unknown
  | failed
  | resolved
  deriving DecidableEq

def Status.rank : Status → Nat
  | .unknown => 0
  | .failed => 1
  | .resolved => 2

instance : LinearOrder Status :=
  LinearOrder.lift' Status.rank fun a b h => by cases a <;> cases b <;> first | rfl | cases h

theorem Status.le_iff {a b : Status} : a ≤ b ↔ a.rank ≤ b.rank := Iff.rfl

namespace State

def status (s : State) (r : Requirement) : Status :=
  if s.isResolved r then .resolved else if s.isFailed r then .failed else .unknown

/-- What can be done with a state: three changes and three questions. -/
inductive Act where
  | addUnit (u : Installable)
  | addResolved (r : Requirement)
  | addFailed (r : Requirement)
  | containsUnit (u : Installable)
  | isResolved (r : Requirement)
  | isFailed (r : Requirement)

def perform (s : State) : Act → State × Option Bool
  | .addUnit u => (s.addUnit u, some !s.containsUnit u)
  | .addResolved r => (s.addResolved r, none)
  | .addFailed r => (s.addFailed r, none)
  | .containsUnit u => (s, some (s.containsUnit u))
  | .isResolved r => (s, some (s.isResolved r))
  | .isFailed r => (s, some (s.isFailed r))

/-- The state after several acts, from one where nothing has happened. -/
def after (acts : List Act) : State := acts.foldl (fun s a => (s.perform a).1) {}

def Act.failure? : Act → Option Requirement
  | .addFailed r => some r
  | _ => none

/-- The requirements that several acts report as failed, of each key the first. -/
def failures (acts : List Act) : List Requirement :=
  (acts.filterMap Act.failure?).eraseDupsBy fun q r => q.key == r.key

theorem failures_concat (acts : List Act) (r : Requirement) :
    failures (acts ++ [.addFailed r]) =
      if (failures acts).any (fun q => r.key == q.key) then failures acts
      else failures acts ++ [r] := by
  simp only [failures, List.filterMap_append, List.filterMap_cons, List.filterMap_nil,
    Act.failure?]
  exact eraseDupsBy_loop_concat _ _ _ _

theorem failures_concat_of_none (acts : List Act) {a : Act} (h : a.failure? = none) :
    failures (acts ++ [a]) = failures acts := by
  simp [failures, List.filterMap_append, h]

theorem after_concat (acts : List Act) (a : Act) :
    after (acts ++ [a]) = ((after acts).perform a).1 := by
  simp [after]

def FailedFirst (acts : List Act) : Prop :=
  (after acts).failed = (failures acts).filter fun r => !(after acts).isResolved r

theorem any_failures_eq_isFailed {acts : List Act} (h : FailedFirst acts) {r : Requirement}
    (hr : (after acts).isResolved r = false) :
    (failures acts).any (fun q => r.key == q.key) = (after acts).isFailed r := by
  rw [Bool.eq_iff_iff, isFailed_iff, h]
  simp only [List.any_eq_true, beq_iff_eq, List.mem_filter, Bool.not_eq_true']
  constructor
  · rintro ⟨q, hq, hk⟩
    exact ⟨q, ⟨hq, (isResolved_congr _ hk.symm).trans hr⟩, hk.symm⟩
  · rintro ⟨q, ⟨hq, _⟩, hk⟩
    exact ⟨q, hq, hk.symm⟩

theorem failedFirst_addFailed {acts : List Act} (h : FailedFirst acts) (r : Requirement) :
    FailedFirst (acts ++ [.addFailed r]) := by
  unfold FailedFirst
  rw [after_concat, failures_concat]
  simp only [perform, isResolved_addFailed]
  cases hr : (after acts).isResolved r with
  | true =>
    rw [addFailed_of_isResolved hr, h]
    split
    · rfl
    · simp [List.filter_append, hr]
  | false =>
    rw [any_failures_eq_isFailed h hr]
    cases hf : (after acts).isFailed r with
    | true => rw [addFailed_of_isFailed hf, if_pos rfl, h]
    | false =>
      rw [failed_addFailed hr hf, h]
      simp [List.filter_append, hr]

theorem failedFirst_after (acts : List Act) : FailedFirst acts := by
  induction acts using List.reverseRecOn with
  | nil => rfl
  | append_singleton acts a ih =>
    cases a with
    | addUnit u =>
      unfold FailedFirst
      rw [after_concat, failures_concat_of_none _ rfl]
      cases hu : (after acts).containsUnit u with
      | true => simpa only [perform, addUnit_of_containsUnit hu] using! ih
      | false =>
        simp only [perform, failed_addUnit hu]
        rw [ih, List.filter_filter]
        apply List.filter_congr
        intro r _
        simp [isResolved_addUnit hu, Bool.and_comm]
    | addResolved q =>
      unfold FailedFirst
      rw [after_concat, failures_concat_of_none _ rfl]
      simp only [perform, failed_addResolved]
      rw [ih, List.filter_filter]
      apply List.filter_congr
      intro r _
      simp [isResolved_addResolved, Bool.and_comm]
    | addFailed q => exact failedFirst_addFailed ih q
    | containsUnit u | isResolved r | isFailed r =>
      unfold FailedFirst
      rw [after_concat, failures_concat_of_none _ rfl]
      exact ih

theorem unresolved_of_mem_failed {acts : List Act} {r : Requirement}
    (h : r ∈ (after acts).failed) : (after acts).isResolved r = false := by
  rw [failedFirst_after acts] at h
  simpa using (List.mem_filter.mp h).2

theorem not_isResolved_and_isFailed (acts : List Act) (r : Requirement) :
    ¬((after acts).isResolved r ∧ (after acts).isFailed r) := by
  rintro ⟨hr, hf⟩
  obtain ⟨q, hq, hk⟩ := (isFailed_iff _ r).mp hf
  rw [← isResolved_congr _ hk, unresolved_of_mem_failed hq] at hr
  cases hr

theorem pairwise_failures (acts : List Act) :
    (failures acts).Pairwise fun q r => q.key ≠ r.key := by
  induction acts using List.reverseRecOn with
  | nil => exact List.Pairwise.nil
  | append_singleton acts a ih =>
    cases h : a.failure? with
    | none => rwa [failures_concat_of_none _ h]
    | some r =>
      obtain rfl : a = .addFailed r := by cases a <;> simp_all [Act.failure?]
      rw [failures_concat]
      split
      · exact ih
      · rename_i hn
        refine List.pairwise_append.mpr ⟨ih, List.pairwise_singleton _ _, ?_⟩
        intro q hq p hp
        obtain rfl := List.mem_singleton.mp hp
        intro hk
        exact hn (List.any_eq_true.mpr ⟨q, hq, by simp [hk]⟩)

theorem nodup_failed_after (acts : List Act) :
    ((after acts).failed.map Requirement.key).Nodup := by
  rw [failedFirst_after acts]
  exact List.pairwise_map.mpr ((pairwise_failures acts).filter _)

theorem status_congr (s : State) {q r : Requirement} (h : q.key = r.key) :
    s.status q = s.status r := by
  simp only [status, isResolved_congr s h, isFailed_congr s h]

theorem settles_iff (s : State) (r : Requirement) :
    (s.isResolved r ∨ s.isFailed r) ↔ .failed ≤ s.status r := by
  rw [Status.le_iff, status]
  cases s.isResolved r <;> cases s.isFailed r <;> simp [Status.rank]

theorem status_le_of_imp {s t : State} {r : Requirement}
    (hr : s.isResolved r → t.isResolved r)
    (hf : s.isFailed r → t.isResolved r ∨ t.isFailed r) : s.status r ≤ t.status r := by
  simp only [Status.le_iff, status]
  cases h : s.isResolved r with
  | true => simp [hr h]
  | false =>
    cases h' : s.isFailed r with
    | true =>
      obtain ht | ht := hf h'
      · simp [ht, Status.rank]
      · cases t.isResolved r <;> simp [ht, Status.rank]
    | false => simp [Status.rank]

/-- One act never lowers a status. -/
theorem status_le_perform (s : State) (a : Act) (r : Requirement) :
    s.status r ≤ (s.perform a).1.status r := by
  cases a with
  | addUnit u =>
    cases hu : s.containsUnit u with
    | true => simp only [perform, addUnit_of_containsUnit hu, le_refl]
    | false =>
      refine status_le_of_imp (isResolved_addUnit_of_isResolved u) ?_
      intro hf
      obtain ⟨q, hq, hk⟩ := (isFailed_iff s r).mp hf
      -- What the unit has something for is promoted, and the other failures stay.
      cases hs : u.satisfies r with
      | true => exact Or.inl (by simp [perform, isResolved_addUnit hu, hs])
      | false =>
        refine Or.inr ((isFailed_iff _ r).mpr ⟨q, ?_, hk⟩)
        simp only [perform, failed_addUnit hu, List.mem_filter]
        exact ⟨hq, by rw [Installable.satisfies_congr u hk, hs, Bool.not_false]⟩
  | addResolved q =>
    refine status_le_of_imp (fun h => by simp [perform, isResolved_addResolved, h]) ?_
    intro hf
    obtain ⟨p, hp, hk⟩ := (isFailed_iff s r).mp hf
    by_cases hq : r.key = q.key
    · exact Or.inl (by simp [perform, isResolved_addResolved, hq])
    · refine Or.inr ((isFailed_iff _ r).mpr ⟨p, ?_, hk⟩)
      simp [perform, failed_addResolved, hp, hk, hq]
  | addFailed q =>
    refine status_le_of_imp (fun h => by simpa [perform, isResolved_addFailed] using h) ?_
    intro hf
    obtain ⟨p, hp, hk⟩ := (isFailed_iff s r).mp hf
    exact Or.inr ((isFailed_iff _ r).mpr ⟨p, mem_failed_addFailed_of_mem q hp, hk⟩)
  | containsUnit u | isResolved q | isFailed q => exact le_refl _

theorem status_after_le (acts more : List Act) (r : Requirement) :
    (after acts).status r ≤ (after (acts ++ more)).status r := by
  induction more using List.reverseRecOn with
  | nil => rw [List.append_nil]
  | append_singleton more a ih =>
    rw [← List.append_assoc, after_concat]
    exact ih.trans (status_le_perform _ a r)

theorem perform_perform (s : State) (a : Act) :
    ((s.perform a).1.perform a).1 = (s.perform a).1 := by
  cases a with
  | addUnit u => exact addUnit_of_containsUnit (containsUnit_addUnit s u)
  | addResolved r => simp [perform, addResolved]
  | addFailed r =>
    simp only [perform]
    cases hr : s.isResolved r with
    | true => rw [addFailed_of_isResolved hr, addFailed_of_isResolved hr]
    | false =>
      refine addFailed_of_isFailed ?_
      cases hf : s.isFailed r with
      | true => rwa [addFailed_of_isFailed hf]
      | false => exact (isFailed_iff _ r).mpr ⟨r, by simp [failed_addFailed hr hf], rfl⟩
  | containsUnit u | isResolved r | isFailed r => rfl

/-- Whatever is done with a state that starts empty: no question is resolved and failed, no failed
requirement is provided by a visited unit, the status of a question only rises, there is one failed
requirement for a question, its first failure, in the order of these, and an act done again changes
nothing. -/
theorem after_lawful (acts : List Act) :
    (∀ r, ¬((after acts).isResolved r ∧ (after acts).isFailed r)) ∧
    (∀ r ∈ (after acts).failed, ∀ u ∈ (after acts).units, u.satisfies r = false) ∧
    (∀ q r, q.key = r.key → (after acts).status q = (after acts).status r) ∧
    (∀ more r, (after acts).status r ≤ (after (acts ++ more)).status r) ∧
    ((after acts).failed.map Requirement.key).Nodup ∧
    (after acts).failed = (failures acts).filter (fun r => !(after acts).isResolved r) ∧
    ∀ a, (after (acts ++ [a, a])) = after (acts ++ [a]) := by
  refine ⟨not_isResolved_and_isFailed acts, ?_, fun _ _ => status_congr _, status_after_le acts,
    nodup_failed_after acts, failedFirst_after acts, ?_⟩
  · intro r hr u hu
    have h := unresolved_of_mem_failed hr
    simp only [isResolved, Bool.or_eq_false_iff, List.any_eq_false] at h
    simpa using h.2 u hu
  · intro a
    rw [List.append_cons, after_concat, after_concat]
    exact perform_perform _ a

end State

end Provision.Resolution
