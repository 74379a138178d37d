import Mathlib.Data.List.Basic
import Provision.Resolution.State

namespace Provision

theorem Requirement.accepts_congr {q r : Requirement} (h : q.key = r.key) :
    q.accepts = r.accepts := by
  obtain ⟨hs, hn, hr⟩ := Requirement.Key.mk.inj h
  funext c
  simp only [Requirement.accepts, hs, hn, hr]

theorem Installable.satisfies_congr (u : Installable) {q r : Requirement} (h : q.key = r.key) :
    u.satisfies q = u.satisfies r := by
  simp only [Installable.satisfies, Requirement.accepts_congr h]

namespace Resolution.State

theorem isResolved_congr (s : State) {q r : Requirement} (h : q.key = r.key) :
    s.isResolved q = s.isResolved r := by
  simp only [isResolved, h, Installable.satisfies_congr _ h]

theorem isFailed_congr (s : State) {q r : Requirement} (h : q.key = r.key) :
    s.isFailed q = s.isFailed r := by
  simp only [isFailed, h]

theorem isFailed_iff (s : State) (r : Requirement) :
    s.isFailed r ↔ ∃ q ∈ s.failed, q.key = r.key := by
  simp [isFailed]

theorem isResolved_iff (s : State) (r : Requirement) :
    s.isResolved r ↔ r.key ∈ s.resolved ∨ ∃ u ∈ s.units, u.satisfies r := by
  simp [isResolved]

theorem satisfies_of_isResolved_eq_false {s : State} {r : Requirement} (h : s.isResolved r = false)
    {u : Installable} (hu : u ∈ s.units) : u.satisfies r = false := by
  refine Bool.eq_false_iff.mpr fun hur => Bool.eq_false_iff.mp h ?_
  exact (isResolved_iff s r).mpr (Or.inr ⟨u, hu, hur⟩)

theorem mem_foldl_insert (k : Requirement.Key) (rs : List Requirement)
    (keys : List Requirement.Key) :
    k ∈ rs.foldl (fun keys r => keys.insert r.key) keys ↔ k ∈ keys ∨ ∃ r ∈ rs, r.key = k := by
  induction rs generalizing keys with
  | nil => simp
  | cons r rs ih =>
    rw [List.foldl_cons, ih, List.mem_insert_iff]
    constructor
    · rintro ((rfl | h) | ⟨q, hq, hk⟩)
      · exact Or.inr ⟨r, by simp, rfl⟩
      · exact Or.inl h
      · exact Or.inr ⟨q, by simp [hq], hk⟩
    · rintro (h | ⟨q, hq, hk⟩)
      · exact Or.inl (Or.inr h)
      · obtain rfl | hq := List.mem_cons.mp hq
        · exact Or.inl (Or.inl hk.symm)
        · exact Or.inr ⟨q, hq, hk⟩

/-- A visit resolves what the unit provides, the promoted requirements among it, and nothing else. -/
theorem isResolved_addUnit {s : State} {u : Installable} (h : s.containsUnit u = false)
    (r : Requirement) :
    (s.addUnit u).isResolved r = (s.isResolved r || u.satisfies r) := by
  have hp : (∃ q ∈ s.promoted u, q.key = r.key) → u.satisfies r := by
    rintro ⟨q, hq, hk⟩
    rw [← Installable.satisfies_congr u hk]
    exact (List.mem_filter.mp hq).2
  rw [Bool.eq_iff_iff, Bool.or_eq_true]
  simp only [isResolved_iff, addUnit, h, Bool.false_eq_true, ↓reduceIte, mem_foldl_insert,
    List.mem_append, List.mem_singleton]
  constructor
  · rintro ((hk | hq) | ⟨v, hv | rfl, hs⟩)
    · exact Or.inl (Or.inl hk)
    · exact Or.inr (hp hq)
    · exact Or.inl (Or.inr ⟨v, hv, hs⟩)
    · exact Or.inr hs
  · rintro ((hk | ⟨v, hv, hs⟩) | hs)
    · exact Or.inl (Or.inl hk)
    · exact Or.inr ⟨v, Or.inl hv, hs⟩
    · exact Or.inr ⟨u, Or.inr rfl, hs⟩

theorem failed_addUnit {s : State} {u : Installable} (h : s.containsUnit u = false) :
    (s.addUnit u).failed = s.failed.filter fun r => !u.satisfies r := by
  simp [addUnit, h]

theorem isResolved_addResolved (s : State) (q r : Requirement) :
    (s.addResolved q).isResolved r = (s.isResolved r || decide (r.key = q.key)) := by
  rw [Bool.eq_iff_iff, Bool.or_eq_true, decide_eq_true_iff]
  simp only [isResolved_iff, addResolved, List.mem_insert_iff]
  exact or_assoc.trans or_comm

theorem isResolved_addFailed (s : State) (q r : Requirement) :
    (s.addFailed q).isResolved r = s.isResolved r := by
  unfold addFailed
  split <;> rfl

theorem failed_addResolved (s : State) (r : Requirement) :
    (s.addResolved r).failed = s.failed.filter fun q => q.key ≠ r.key := rfl

theorem failed_addResolved_of_isFailed_eq_false {s : State} {r : Requirement}
    (h : s.isFailed r = false) : (s.addResolved r).failed = s.failed := by
  rw [failed_addResolved, List.filter_eq_self]
  intro q hq
  have hne : q.key ≠ r.key := fun hk =>
    Bool.eq_false_iff.mp h ((isFailed_iff s r).mpr ⟨q, hq, hk⟩)
  exact decide_eq_true hne

theorem addFailed_of_isResolved {s : State} {r : Requirement} (h : s.isResolved r) :
    s.addFailed r = s := by
  simp [addFailed, h]

theorem addFailed_of_isFailed {s : State} {r : Requirement} (h : s.isFailed r) :
    s.addFailed r = s := by
  simp [addFailed, h]

theorem failed_addFailed {s : State} {r : Requirement} (hr : s.isResolved r = false)
    (hf : s.isFailed r = false) : (s.addFailed r).failed = s.failed ++ [r] := by
  simp [addFailed, hr, hf]

theorem mem_failed_addFailed {s : State} {q r : Requirement} (h : q ∈ (s.addFailed r).failed) :
    q ∈ s.failed ∨ q = r := by
  unfold addFailed at h
  split at h
  · exact Or.inl h
  · simpa using h

theorem mem_failed_addFailed_of_mem {s : State} {q : Requirement} (r : Requirement)
    (h : q ∈ s.failed) : q ∈ (s.addFailed r).failed := by
  unfold addFailed
  split
  · exact h
  · exact List.mem_append_left _ h

theorem addUnit_of_containsUnit {s : State} {u : Installable} (h : s.containsUnit u) :
    s.addUnit u = s := by
  simp [addUnit, h]

theorem containsUnit_addUnit (s : State) (u : Installable) : (s.addUnit u).containsUnit u := by
  unfold addUnit
  split
  · assumption
  · simp [containsUnit, Installable.same]

theorem isResolved_addUnit_of_isResolved {s : State} {r : Requirement} (u : Installable)
    (h : s.isResolved r) : (s.addUnit u).isResolved r := by
  cases hu : s.containsUnit u with
  | true => rwa [addUnit_of_containsUnit hu]
  | false => rw [isResolved_addUnit hu, h, Bool.true_or]

theorem containsUnit_iff (s : State) (u : Installable) :
    s.containsUnit u ↔ ∃ v ∈ s.units, u.key = v.key := by
  simp [containsUnit, Installable.same]

theorem units_addFailed (s : State) (r : Requirement) :
    (s.addFailed r).units = s.units := by
  unfold addFailed
  split <;> rfl

theorem units_addUnit {s : State} {u : Installable} (h : s.containsUnit u = false) :
    (s.addUnit u).units = s.units ++ [u] := by
  simp [addUnit, h]

end Resolution.State

end Provision
