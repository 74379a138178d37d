import Provision.Proofs.Version.RoundTrip
import Provision.Proofs.VersionRange.Grammar

namespace Provision

open Provision.Text

namespace VersionRange

variable {r : VersionRange} {x : Value}

def bounds (r : VersionRange) : List Version :=
  r.minimum :: r.maximum.toList

structure IsSound (r : VersionRange) : Prop where
  readable : ∀ v ∈ r.bounds, v.IsReadable
  ordered : r.Ordered

theorem ordered_of_maximum_eq_none (h : r.maximum = none) : r.Ordered := by
  intro m hm
  rw [h] at hm
  cases hm

theorem Spells.isSound {raw : List Char} (h : Spells IsLegible raw r) : r.IsSound := by
  cases h with
  | blank =>
    refine ⟨?_, ordered_of_maximum_eq_none rfl⟩
    exact List.forall_mem_singleton.mpr (Version.Spells.blank : Version.Spells IsLegible [] {}).isReadable
  | bare _ hv =>
    exact ⟨List.forall_mem_singleton.mpr hv.isReadable, ordered_of_maximum_eq_none rfl⟩
  | bracketed _ _ _ _ hmin hmax hordered =>
    refine ⟨List.forall_mem_cons.mpr ⟨hmin.isReadable, ?_⟩, hordered⟩
    cases hmax with
    | absent _ => nofun
    | present _ hv => exact List.forall_mem_singleton.mpr hv.isReadable

theorem isSound_of_ofValue (h : ofValue x = .ok r) : r.IsSound := by
  unfold ofValue at h
  split at h
  case h_1 =>
    cases h
    exact (Spells.blank : Spells IsLegible [] any).isSound
  case h_2 =>
    obtain ⟨s, -, hs⟩ := bind_eq_ok_iff.mp h
    exact (ofChars_eq_ok_iff.mp hs).isSound

/-! ### The range that is read again -/

/-- A range without what its written form does not tell. -/
def reread (r : VersionRange) : VersionRange :=
  { r with includeMaximum := r.includeMaximum && (r.maximum.isSome || !r.includeMinimum) }

theorem reread_of_isBare (h : r.IsBare) : r.reread = { minimum := r.minimum } := by
  obtain ⟨minimum, includeMinimum, maximum, includeMaximum⟩ := r
  obtain ⟨rfl, hmin⟩ : maximum = none ∧ includeMinimum = true := h
  subst hmin
  exact congrArg _ (Bool.and_false _)

theorem reread_of_not_isBare (h : ¬r.IsBare) : r.reread = r := by
  obtain ⟨minimum, includeMinimum, maximum, includeMaximum⟩ := r
  have htold : (maximum.isSome || !includeMinimum) = true := by
    cases maximum with
    | some m => rfl
    | none =>
      cases includeMinimum with
      | true => exact absurd ⟨rfl, rfl⟩ h
      | false => rfl
  rw [reread, htold, Bool.and_true]

theorem includes_reread (r : VersionRange) (v : Version) : r.reread.includes v = r.includes v := by
  by_cases h : r.IsBare
  · have hmaximum : r.maximum = none := h.1
    simp [reread, includes, aboveMinimum, belowMaximum, hmaximum]
  · rw [reread_of_not_isBare h]

theorem text_reread (r : VersionRange) : r.reread.text = r.text := by
  by_cases h : r.IsBare
  · rw [reread_of_isBare h, text_of_isBare h]
    rfl
  · rw [reread_of_not_isBare h]

theorem reread_eq_self_iff :
    r.reread = r ↔ ¬(r.maximum = none ∧ r.includeMinimum ∧ r.includeMaximum) := by
  by_cases h : r.IsBare
  · rw [reread_of_isBare h]
    obtain ⟨minimum, includeMinimum, maximum, includeMaximum⟩ := r
    obtain ⟨rfl, hmin⟩ : maximum = none ∧ includeMinimum = true := h
    subst hmin
    cases includeMaximum <;> simp
  · rw [reread_of_not_isBare h]
    exact iff_of_true rfl fun hbare => h ⟨hbare.1, hbare.2.1⟩

/-! ### Written ranges -/

theorem not_isBlank_of_mem_text (hplain : ∀ v ∈ r.bounds, v.IsPlain) :
    ∀ c ∈ r.text.toList, isBlank c = false := by
  have hmin := Version.not_isBlank_of_mem_text (hplain r.minimum List.mem_cons_self)
  by_cases h : r.IsBare
  · rwa [text_of_isBare h]
  · have hopening : isBlank r.opening = false := by
      unfold opening
      split <;> decide
    have hclosing : isBlank r.closing = false := by
      unfold closing
      split <;> decide
    have hupper : ∀ c ∈ r.upperText.toList, isBlank c = false := by
      unfold upperText
      cases hmaximum : r.maximum with
      | none => nofun
      | some m =>
        exact Version.not_isBlank_of_mem_text (hplain m (by simp [bounds, hmaximum]))
    rw [toList_text_of_not_isBare h]
    simp only [List.forall_mem_cons, List.forall_mem_append]
    exact ⟨hopening, hmin, by decide, hupper, hclosing, List.forall_mem_nil _⟩

theorem spells_upperText (h : ∀ v ∈ r.bounds, v.IsReadable) :
    SpellsUpper IsLegible r.upperText.toList r.maximum := by
  unfold upperText
  cases hmaximum : r.maximum with
  | none => exact .absent rfl
  | some m =>
    have hm : m.IsReadable := h m (by simp [bounds, hmaximum])
    have hspells := hm.spells_text
    have htrim := Version.trim_eq_self_of_forall (Version.not_isBlank_of_mem_text hm.isPlain)
    have hne : trim m.text.toList ≠ [] := htrim.symm ▸ m.toList_text_ne_nil
    exact .present hne (htrim.symm ▸ hspells)

theorem eq_of_brackets (r : VersionRange) :
    (⟨r.minimum, r.opening = '[', r.maximum, r.closing = ']'⟩ : VersionRange) = r := by
  obtain ⟨minimum, includeMinimum, maximum, includeMaximum⟩ := r
  cases includeMinimum <;> cases includeMaximum <;> rfl

theorem spells_text (h : r.IsSound) : Spells IsLegible r.text.toList r.reread := by
  have hmin : r.minimum.IsReadable := h.readable _ List.mem_cons_self
  have htrim := Version.trim_eq_self_of_forall (Version.not_isBlank_of_mem_text hmin.isPlain)
  by_cases hbare : r.IsBare
  · rw [text_of_isBare hbare, reread_of_isBare hbare]
    exact .bare r.minimum.toList_text_ne_nil hmin.spells_text
  · have hopening : IsOpening r.opening := by
      unfold opening
      split
      · exact Or.inl rfl
      · exact Or.inr rfl
    have hclosing : IsClosing r.closing := by
      unfold closing
      split
      · exact Or.inl rfl
      · exact Or.inr rfl
    have hupper : ',' ∉ r.upperText.toList := by
      unfold upperText
      cases hmaximum : r.maximum with
      | none => nofun
      | some m => exact (h.readable m (by simp [bounds, hmaximum])).isPlain.comma_not_mem
    have hspells := Spells.bracketed hopening hclosing hmin.isPlain.comma_not_mem hupper
      (htrim.symm ▸ hmin.spells_text) (spells_upperText h.readable)
      (by rw [eq_of_brackets]; exact h.ordered)
    rw [reread_of_not_isBare hbare, toList_text_of_not_isBare hbare]
    rw [eq_of_brackets] at hspells
    simpa using hspells

/-- What a range that was read is written as is read as a range of the same bounds, in which the same
versions are and which is written alike. It is the same range unless that has no upper bound, is
written as its lower bound alone, and counts the missing bound in. -/
theorem read_text_of_read (h : ofValue x = .ok r) :
    (∀ v ∈ r.bounds, v.IsShort) ∧ ∃ q, ofValue (.text r.text) = .ok q ∧ q.minimum = r.minimum ∧
      q.includeMinimum = r.includeMinimum ∧ q.maximum = r.maximum ∧
      (∀ v, q.includes v = r.includes v) ∧ q.text = r.text ∧
      (q = r ↔ ¬(r.maximum = none ∧ r.includeMinimum ∧ r.includeMaximum)) := by
  have hsound := isSound_of_ofValue h
  have hplain : ∀ v ∈ r.bounds, v.IsPlain := fun v hv => (hsound.readable v hv).isPlain
  have htrim := Version.trim_eq_self_of_forall (not_isBlank_of_mem_text hplain)
  refine ⟨fun v hv => (hsound.readable v hv).isShort, r.reread, ?_, rfl, rfl, rfl,
    includes_reread r, text_reread r, reread_eq_self_iff⟩
  exact ofChars_eq_ok_iff.mpr (htrim.symm ▸ spells_text hsound)

theorem read_text_of_read_closed :
    ofValue (.text "[1.0,]") = .ok ⟨⟨1, 0, 0, ""⟩, true, none, true⟩ ∧
      ∃ q, ofValue (.text "1.0.0") = .ok q ∧ q.minimum = ⟨1, 0, 0, ""⟩ ∧
        q ≠ ⟨⟨1, 0, 0, ""⟩, true, none, true⟩ := by
  have h : ofValue (.text "[1.0,]") = .ok ⟨⟨1, 0, 0, ""⟩, true, none, true⟩ := rfl
  obtain ⟨-, q, hq, hmin, -, -, -, -, hself⟩ := read_text_of_read h
  exact ⟨h, q, hq, hmin, fun heq => hself.mp heq ⟨rfl, rfl, rfl⟩⟩

end VersionRange

end Provision
