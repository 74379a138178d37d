import Provision.Installable.Reader
import Provision.Proofs.Failure
import Provision.Proofs.VersionRange.Emptiness

namespace Provision

open Provision.Text

/-- A text that names something is not empty and has no blanks at its ends. -/
structure IsName (s : String) : Prop where
  trimmed : trim s.toList = s.toList
  nonempty : s.toList ≠ []

theorem requireText_eq_ok_iff {what s : String} {v : Value} :
    requireText what v = .ok s ↔ ∃ t, v = .text t ∧ isBlankText t = false ∧ trimText t = s := by
  unfold requireText
  split
  · rename_i t
    cases hblank : isBlankText t <;> simp [pure_eq_ok_iff, throw_eq_ok_iff, hblank]
  · rename_i hnot
    refine ⟨nofun, ?_⟩
    rintro ⟨t, rfl, -⟩
    exact absurd rfl (hnot t)

theorem isName_of_requireText {what s : String} {v : Value} (h : requireText what v = .ok s) :
    IsName s := by
  obtain ⟨t, -, hblank, rfl⟩ := requireText_eq_ok_iff.mp h
  have htrim : (trimText t).toList = trim t.toList := String.toList_ofList
  refine ⟨?_, fun hnil => ?_⟩
  · rw [htrim, trim_trim]
  · rw [htrim, trim_eq_nil_iff, ← List.all_eq_true] at hnil
    exact Bool.false_ne_true (hblank.symm.trans hnil)

theorem IsName.requireText {s : String} (h : IsName s) (what : String) :
    requireText what (.text s) = .ok s := by
  refine requireText_eq_ok_iff.mpr ⟨s, rfl, Bool.eq_false_iff.mpr fun hblank => ?_, ?_⟩
  · have hnil := trim_eq_nil_iff.mpr (List.all_eq_true.mp hblank)
    exact h.nonempty (h.trimmed.symm.trans hnil)
  · rw [trimText, h.trimmed, String.ofList_toList]

namespace VersionRange

theorem includes_exactly_iff {v x : Version} : (exactly x).includes v ↔ v = x := by
  rw [includes_iff, exactly]
  simp only [Option.mem_some_iff, forall_eq', true_and]
  constructor
  · rintro ⟨hmin | rfl, hmax⟩
    · obtain hmax | rfl := hmax
      · exact absurd hmax (Version.not_lt_of_le (Version.le_iff_lt_or_eq.mpr (Or.inl hmin)))
      · rfl
    · rfl
  · rintro rfl
    exact ⟨Or.inr rfl, Or.inr rfl⟩

end VersionRange

def Requirement.naming (namespaceName id : String) (x : Version) : Requirement where
  namespaceName := namespaceName
  name := id
  range := .exactly x

theorem Requirement.naming_accepts_iff {namespaceName id : String} {x : Version} {k : Capability} :
    (naming namespaceName id x).accepts k ↔ k = Installable.identity namespaceName id x := by
  simp only [accepts, Bool.and_eq_true, decide_eq_true_iff, and_assoc]
  rw [naming, VersionRange.includes_exactly_iff, Installable.identity, Capability.mk.injEq]

namespace Installable

/-- A unit is built from an id and a version as given. -/
def IsBuilt (c : Conventions) (u : Installable) : Prop :=
  ∃ id version requires provides artifacts owner,
    ofFields c id version requires provides artifacts owner = .ok u

variable {c : Conventions} {u : Installable}

theorem mem_provides_build (namespaceName id : String) (version : Version)
    (requires : List Requirement) (provides : List Capability) (artifacts : List Artifact)
    (owner : Option Source) : identity namespaceName id version ∈
      (build namespaceName id version requires provides artifacts owner).provides := by
  unfold build
  dsimp only
  split
  case isTrue h => exact h
  case isFalse => exact List.mem_cons_self

theorem isBuilt_iff : u.IsBuilt c ↔ ∃ namespaceName id version requires provides artifacts owner,
    requireText "capability namespace" c.unitNamespace = .ok namespaceName ∧ IsName id ∧
      version.IsReadable ∧
      u = build namespaceName id version requires provides artifacts owner := by
  constructor
  · rintro ⟨id, version, requires, provides, artifacts, owner, h⟩
    obtain ⟨id', hid, h⟩ := bind_eq_ok_iff.mp h
    obtain ⟨version', hversion, h⟩ := bind_eq_ok_iff.mp h
    obtain ⟨namespaceName, hnamespace, h⟩ := bind_eq_ok_iff.mp h
    exact ⟨namespaceName, id', version', requires, provides, artifacts, owner, hnamespace,
      isName_of_requireText hid, ⟨version, hversion⟩, (pure_eq_ok_iff.mp h).symm⟩
  · rintro ⟨namespaceName, id, version, requires, provides, artifacts, owner, hnamespace, hid,
      ⟨x, hx⟩, rfl⟩
    refine ⟨.text id, x, requires, provides, artifacts, owner, ?_⟩
    rw [ofFields, hid.requireText, hx, hnamespace]
    rfl

theorem isBuilt_build {id : String} {version : Version} (hid : IsName id)
    (hversion : version.IsReadable) (requires : List Requirement) (provides : List Capability)
    (artifacts : List Artifact) (owner : Option Source) :
    IsBuilt {} (build Provision.unitNamespace id version requires provides artifacts owner) := by
  have hnamespace : IsName Provision.unitNamespace := ⟨by decide +kernel, by decide +kernel⟩
  exact isBuilt_iff.mpr ⟨_, _, _, _, _, _, _, hnamespace.requireText _, hid, hversion, rfl⟩

theorem IsBuilt.isName (h : u.IsBuilt c) : IsName u.id := by
  obtain ⟨_, _, _, _, _, _, _, _, hid, _, rfl⟩ := isBuilt_iff.mp h
  exact hid

theorem IsBuilt.isReadable (h : u.IsBuilt c) : u.version.IsReadable := by
  obtain ⟨_, _, _, _, _, _, _, _, _, hversion, rfl⟩ := isBuilt_iff.mp h
  exact hversion

theorem IsBuilt.mem_provides (h : u.IsBuilt c) : ∃ namespaceName,
    requireText "requirement namespace" c.unitNamespace = .ok namespaceName ∧
      identity namespaceName u.id u.version ∈ u.provides := by
  obtain ⟨namespaceName, _, _, _, _, _, _, hnamespace, _, _, rfl⟩ := isBuilt_iff.mp h
  exact ⟨namespaceName, requireText_eq_ok_iff.mpr (requireText_eq_ok_iff.mp hnamespace),
    mem_provides_build _ _ _ _ _ _ _⟩

/-- The requirement for exactly the version of a unit is well-formed, and the unit satisfies it. -/
theorem IsBuilt.exists_requirement (h : u.IsBuilt c) : ∃ r, Requirement.ofFields
      { namespaceName := c.unitNamespace, name := .text u.id, range := .inr (.exactly u.version) } =
        .ok r ∧ u.satisfies r := by
  obtain ⟨namespaceName, hnamespace, hmem⟩ := h.mem_provides
  refine ⟨.naming namespaceName u.id u.version, ?_, ?_⟩
  · rw [Requirement.ofFields, hnamespace, h.isName.requireText]
    rfl
  · exact List.any_eq_true.mpr ⟨_, hmem, Requirement.naming_accepts_iff.mpr rfl⟩

end Installable

end Provision
