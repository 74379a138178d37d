import Provision.Proofs.Version.Order
import Provision.Proofs.VersionRange.RoundTrip

namespace Provision.VersionRange

variable {r : VersionRange} {v m : Version} {x : Value}

theorem aboveMinimum_iff : r.aboveMinimum v ↔
    r.minimum < v ∨ r.includeMinimum ∧ r.minimum = v := by
  cases h : r.includeMinimum <;> simp [aboveMinimum, h, Version.le_iff_lt_or_eq]

theorem belowMaximum_iff : r.belowMaximum v ↔
    ∀ m ∈ r.maximum, v < m ∨ r.includeMaximum ∧ v = m := by
  cases hmaximum : r.maximum with
  | none => simp [belowMaximum, hmaximum]
  | some m =>
    cases h : r.includeMaximum <;> simp [belowMaximum, hmaximum, h, Version.le_iff_lt_or_eq]

theorem includes_iff : r.includes v ↔ (r.minimum < v ∨ r.includeMinimum ∧ r.minimum = v) ∧
    ∀ m ∈ r.maximum, v < m ∨ r.includeMaximum ∧ v = m := by
  rw [includes, Bool.and_eq_true, aboveMinimum_iff, belowMaximum_iff]

theorem includes_minimum (h : r.Ordered) (hmin : r.includeMinimum) : r.includes r.minimum := by
  refine includes_iff.mpr ⟨Or.inr ⟨hmin, rfl⟩, fun m hm => ?_⟩
  exact (h m hm).imp_right fun heq => ⟨heq.2.2, heq.1⟩

theorem includes_maximum (hm : m ∈ r.maximum) (hlt : r.minimum < m) (hmax : r.includeMaximum) :
    r.includes m := by
  refine includes_iff.mpr ⟨Or.inl hlt, fun m' hm' => Or.inr ⟨hmax, ?_⟩⟩
  exact Option.some.inj (hm.symm.trans hm')

theorem includes_successor (h : ∀ m ∈ r.maximum, r.minimum.successor < m) :
    r.includes r.minimum.successor :=
  includes_iff.mpr ⟨Or.inl r.minimum.lt_successor, fun m hm => Or.inl (h m hm)⟩

theorem not_includes_of_successor (hv : v.IsPlain) (hmin : r.includeMinimum = false)
    (hmax : r.includeMaximum = false) (hm : r.maximum = some r.minimum.successor) :
    ¬r.includes v := by
  simp only [includes_iff, hmin, hmax, hm, Option.mem_some_iff, forall_eq', Bool.false_eq_true,
    false_and, or_false, not_and]
  exact fun hlt => Version.not_lt_of_le (Version.successor_le_of_lt hv hlt)

/-- A range that was read holds no version that is read exactly where both bounds are left out and the
upper one has the numbers of the lower one and its qualifier with a hyphen behind it. -/
theorem includes_none_iff (h : ofValue x = .ok r) :
    (∀ v : Version, v.IsReadable → r.includes v = false) ↔
      r.includeMinimum = false ∧ r.includeMaximum = false ∧
        r.maximum = some { r.minimum with qualifier := r.minimum.qualifier ++ "-" } := by
  have hsound := isSound_of_ofValue h
  have hmin : r.minimum.IsReadable := hsound.readable _ List.mem_cons_self
  constructor
  · intro hnone
    have hout : ∀ v : Version, v.IsReadable → ¬r.includes v := fun v hv =>
      Bool.eq_false_iff.mp (hnone v hv)
    have hopen : r.includeMinimum = false := by
      by_contra hin
      exact hout _ hmin (includes_minimum hsound.ordered (Bool.not_eq_false _ ▸ hin))
    -- The successor of the lower bound is in the range, unless it is the upper bound or above it.
    cases hmaximum : r.maximum with
    | none =>
      refine absurd (includes_successor ?_) (hout _ hmin.successor)
      simp [hmaximum]
    | some m =>
      have hm : m.IsReadable := hsound.readable m (by simp [bounds, hmaximum])
      have hlt : r.minimum < m := by
        refine (hsound.ordered m hmaximum).resolve_right fun heq => ?_
        rw [hopen] at heq
        cases heq.2.1
      have hclosed : r.includeMaximum = false := by
        by_contra hin
        exact hout _ hm (includes_maximum hmaximum hlt (Bool.not_eq_false _ ▸ hin))
      refine ⟨hopen, hclosed, ?_⟩
      obtain hsucc | hsucc := Version.le_iff_lt_or_eq.mp (Version.successor_le_of_lt hm.isPlain hlt)
      · refine absurd (includes_successor ?_) (hout _ hmin.successor)
        simpa [hmaximum] using hsucc
      · exact congrArg some hsucc.symm
  · rintro ⟨hopen, hclosed, hmaximum⟩ v hv
    exact Bool.eq_false_iff.mpr (not_includes_of_successor hv.isPlain hopen hclosed hmaximum)

theorem includes_none_iff_adjacent :
    ofValue (.text "(1.0.0.a,1.0.0.a-)") =
        .ok ⟨⟨1, 0, 0, "a"⟩, false, some ⟨1, 0, 0, "a-"⟩, false⟩ ∧
      ∀ v : Version, v.IsReadable →
        (⟨⟨1, 0, 0, "a"⟩, false, some ⟨1, 0, 0, "a-"⟩, false⟩ : VersionRange).includes v = false := by
  have h : ofValue (.text "(1.0.0.a,1.0.0.a-)") =
      .ok ⟨⟨1, 0, 0, "a"⟩, false, some ⟨1, 0, 0, "a-"⟩, false⟩ := rfl
  exact ⟨h, (includes_none_iff h).mpr ⟨rfl, rfl, rfl⟩⟩

end Provision.VersionRange
