import Mathlib.Data.String.Basic
import Provision.Proofs.Version.RoundTrip

namespace Provision

open Provision.Text

namespace Text
variable {cs ds : List Char} {c : Char}

theorem lt_concat (cs : List Char) (c : Char) : cs < cs ++ [c] := by
  induction cs with
  | nil => exact List.nil_lt_cons c []
  | cons _ cs ih => exact List.cons_lt_cons_iff.mpr (Or.inr ⟨rfl, ih⟩)

/-- Between a text and the same one with the least character behind it there is no other. -/
theorem concat_le_of_lt (hds : ∀ d ∈ ds, c ≤ d) (h : cs < ds) : cs ++ [c] < ds ∨ cs ++ [c] = ds := by
  induction cs generalizing ds with
  | nil =>
    cases ds with
    | nil => cases h
    | cons d ds =>
      obtain hlt | rfl := lt_or_eq_of_le (hds d List.mem_cons_self)
      · exact Or.inl (List.cons_lt_cons_iff.mpr (Or.inl hlt))
      · cases ds with
        | nil => exact Or.inr rfl
        | cons d ds => exact Or.inl (List.cons_lt_cons_iff.mpr (Or.inr ⟨rfl, List.nil_lt_cons d ds⟩))
  | cons x cs ih =>
    cases ds with
    | nil => cases h
    | cons d ds =>
      obtain hlt | ⟨rfl, hlt⟩ := List.cons_lt_cons_iff.mp h
      · exact Or.inl (List.cons_lt_cons_iff.mpr (Or.inl hlt))
      · obtain h | h := ih (fun e he => hds e (List.mem_cons_of_mem _ he)) hlt
        · exact Or.inl (List.cons_lt_cons_iff.mpr (Or.inr ⟨rfl, h⟩))
        · exact Or.inr (congrArg (x :: ·) h)

end Text

namespace Version

variable {u v w : Version}

theorem compare_eq (v w : Version) : compare v w = (compare v.major w.major).then
    ((compare v.minor w.minor).then ((compare v.micro w.micro).then
      (compare v.qualifier w.qualifier))) := rfl

instance : Std.TransOrd Version :=
  inferInstanceAs <| Std.TransCmp <| compareLex (compareOn major) <|
    compareLex (compareOn minor) <| compareLex (compareOn micro) (compareOn qualifier)

instance : Std.LawfulEqOrd Version where
  eq_of_compare {v w} h := by
    simp only [compare_eq, Ordering.then_eq_eq, compare_eq_iff_eq] at h
    cases v
    cases w
    simp_all

theorem lt_iff : v < w ↔ v.major < w.major ∨ v.major = w.major ∧ (v.minor < w.minor ∨
    v.minor = w.minor ∧ (v.micro < w.micro ∨ v.micro = w.micro ∧ v.qualifier < w.qualifier)) := by
  change compare v w = .lt ↔ _
  simp only [compare_eq, Ordering.then_eq_lt, compare_lt_iff_lt, compare_eq_iff_eq]

theorem le_iff_lt_or_eq : v ≤ w ↔ v < w ∨ v = w := by
  change (compare v w).isLE ↔ compare v w = .lt ∨ v = w
  rw [Ordering.isLE_iff_eq_lt_or_eq_eq, Std.LawfulEqCmp.compare_eq_iff_eq]

theorem not_lt_of_le (h : v ≤ w) : ¬w < v := by
  intro hlt
  have hswap : compare w v = (compare v w).swap := Std.OrientedCmp.eq_swap
  have hlt : compare w v = .lt := hlt
  have hle : (compare v w).isLE := h
  rw [hswap] at hlt
  cases hcmp : compare v w <;> simp_all

theorem le_of_not_lt (h : ¬v < w) : w ≤ v := by
  have hswap : compare w v = (compare v w).swap := Std.OrientedCmp.eq_swap
  have hne : compare v w ≠ .lt := h
  change (compare w v).isLE
  rw [hswap]
  cases hcmp : compare v w <;> simp_all

theorem le_refl (v : Version) : v ≤ v :=
  le_iff_lt_or_eq.mpr (Or.inr rfl)

theorem le_trans (huv : u ≤ v) (hvw : v ≤ w) : u ≤ w :=
  Std.TransCmp.isLE_trans huv hvw

theorem le_antisymm (hvw : v ≤ w) (hwv : w ≤ v) : v = w :=
  (le_iff_lt_or_eq.mp hvw).resolve_left (not_lt_of_le hwv)

theorem lt_of_qualifier_lt (hmajor : v.major = w.major) (hminor : v.minor = w.minor)
    (hmicro : v.micro = w.micro) (h : v.qualifier < w.qualifier) : v < w :=
  lt_iff.mpr (Or.inr ⟨hmajor, Or.inr ⟨hminor, Or.inr ⟨hmicro, h⟩⟩⟩)

/-- The version right above another one. -/
def successor (v : Version) : Version :=
  { v with qualifier := v.qualifier ++ "-" }

theorem lt_successor (v : Version) : v < v.successor := by
  refine lt_of_qualifier_lt rfl rfl rfl (String.lt_iff_toList_lt.mpr ?_)
  rw [successor, String.toList_append]
  exact lt_concat _ _

theorem hyphen_le_of_isQualifierChar {c : Char} (h : isQualifierChar c) : '-' ≤ c :=
  (bounds_of_isQualifierChar h).1

/-- No version is between another one and its successor. -/
theorem successor_le_of_lt (hw : w.IsPlain) (h : v < w) : v.successor ≤ w := by
  rw [le_iff_lt_or_eq]
  obtain hmajor | ⟨hmajor, hminor | ⟨hminor, hmicro | ⟨hmicro, hqualifier⟩⟩⟩ := lt_iff.mp h
  · exact Or.inl (lt_iff.mpr (Or.inl hmajor))
  · exact Or.inl (lt_iff.mpr (Or.inr ⟨hmajor, Or.inl hminor⟩))
  · exact Or.inl (lt_iff.mpr (Or.inr ⟨hmajor, Or.inr ⟨hminor, Or.inl hmicro⟩⟩))
  · have hchars : ∀ c ∈ w.qualifier.toList, '-' ≤ c := fun c hc => hyphen_le_of_isQualifierChar (hw c hc)
    have hlist : v.successor.qualifier.toList = v.qualifier.toList ++ ['-'] := String.toList_append
    obtain hlt | heq := concat_le_of_lt hchars (String.lt_iff_toList_lt.mp hqualifier)
    · rw [← hlist] at hlt
      exact Or.inl (lt_of_qualifier_lt hmajor hminor hmicro (String.lt_iff_toList_lt.mpr hlt))
    · rw [← hlist] at heq
      refine Or.inr ?_
      obtain ⟨major, minor, micro, qualifier⟩ := w
      obtain rfl : v.major = major := hmajor
      obtain rfl : v.minor = minor := hminor
      obtain rfl : v.micro = micro := hmicro
      obtain rfl : v.successor.qualifier = qualifier := String.toList_inj.mp heq
      rfl

theorem IsReadable.successor (h : v.IsReadable) : v.successor.IsReadable := by
  refine isReadable_iff.mpr ⟨?_, h.isShort⟩
  intro c hc
  rw [Version.successor, String.toList_append] at hc
  obtain hc | hc := List.mem_append.mp hc
  · exact h.isPlain c hc
  · obtain rfl := List.mem_singleton.mp hc
    decide

end Version

end Provision
