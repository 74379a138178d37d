import Provision.Proofs.Manifest.Shape
import Provision.Proofs.Yaml.Plain

namespace Provision.Manifest

open Provision.Text

def RangeIs (v : Value) (range : VersionRange) : Prop :=
  ∃ text, versionText v = .ok text ∧ VersionRange.ofValue text = .ok range

/-- Two values are read as the same versions and ranges. -/
structure Alike (v w : Value) : Prop where
  version (a : Version) : VersionIs v a ↔ VersionIs w a
  range (r : VersionRange) : RangeIs v r ↔ RangeIs w r

theorem Alike.refl (v : Value) : Alike v v :=
  ⟨fun _ => Iff.rfl, fun _ => Iff.rfl⟩

theorem Alike.symm {v w : Value} (h : Alike v w) : Alike w v :=
  ⟨fun a => (h.version a).symm, fun r => (h.range r).symm⟩

def IsVersionKey (key : String) : Prop :=
  key = "version" ∨ key = "range"

instance (key : String) : Decidable (IsVersionKey key) :=
  inferInstanceAs (Decidable (_ ∨ _))

variable {v w : Value} {t : String} {a : Version} {n : Nat}

/-- A value spells a version, which is the least of a range. -/
structure IsSpelling (v : Value) (a : Version) : Prop where
  version : VersionIs v a
  range : RangeIs v { minimum := a }

theorem versionIs_unique {a b : Version} (ha : VersionIs v a) (hb : VersionIs v b) : a = b := by
  obtain ⟨text, htext, ha⟩ := ha
  obtain ⟨text', htext', hb⟩ := hb
  obtain rfl := Except.ok.inj (htext.symm.trans htext')
  exact Except.ok.inj (ha.symm.trans hb)

theorem rangeIs_unique {r s : VersionRange} (hr : RangeIs v r) (hs : RangeIs v s) : r = s := by
  obtain ⟨text, htext, hr⟩ := hr
  obtain ⟨text', htext', hs⟩ := hs
  obtain rfl := Except.ok.inj (htext.symm.trans htext')
  exact Except.ok.inj (hr.symm.trans hs)

theorem IsSpelling.alike (hv : IsSpelling v a) (hw : IsSpelling w a) : Alike v w where
  version b := by
    constructor
    · intro hb
      exact versionIs_unique hv.version hb ▸ hw.version
    · intro hb
      exact versionIs_unique hw.version hb ▸ hv.version
  range r := by
    constructor
    · intro hr
      exact rangeIs_unique hv.range hr ▸ hw.range
    · intro hr
      exact rangeIs_unique hw.range hr ▸ hv.range

theorem IsSpelling.of_alike (hv : IsSpelling v a) (h : Alike v w) : IsSpelling w a :=
  ⟨(h.version a).mp hv.version, (h.range _).mp hv.range⟩

theorem isSpelling_of_spells (hv : versionText v = .ok (.text t)) (htrim : trim t.toList = t.toList)
    (hne : t.toList ≠ []) (h : Version.Spells IsLegible t.toList a) : IsSpelling v a where
  version := by
    refine ⟨_, hv, Version.ofChars_eq_ok_iff.mpr ?_⟩
    rwa [htrim]
  range := by
    refine ⟨_, hv, VersionRange.ofChars_eq_ok_iff.mpr ?_⟩
    rw [htrim]
    exact .bare hne h

theorem isSpelling_text (h : Yaml.IsVersionText t a) : IsSpelling (.text t) a :=
  isSpelling_of_spells rfl h.trimmed (fun hnil => h.ne (String.toList_eq_nil_iff.mp hnil)) h.spells

theorem versionText_int {i : Int} (h : intText? i = some t) : versionText (.int i) = .ok (.text t) := by
  unfold versionText
  simp only [h]
  rfl

theorem isSpelling_int (h : (toString n).length ≤ Numeral.maxDigits) :
    IsSpelling (.int n) ⟨n, 0, 0, ""⟩ := by
  have hdecimal := Version.isDecimal_toString n
  have hblank : ∀ c ∈ (toString n).toList, isBlank c = false := fun c hc =>
    not_isBlank_of_isDecimalDigit (hdecimal.isDecimalDigit c hc)
  have hlt := (length_toString_le_iff (k := Numeral.maxDigits) (by decide)).mp h
  have hwritten : intText? n = some (toString n) := by
    unfold intText?
    rw [Int.natAbs_natCast]
    exact if_pos hlt
  exact isSpelling_of_spells (versionText_int hwritten) (Version.trim_eq_self_of_forall hblank)
    hdecimal.1 (.major ⟨hdecimal, h⟩)

/-- The value of a plain scalar spells the version that the text spells, unless it is misread. -/
theorem isSpelling_plain_iff (h : Yaml.IsVersionText t a) : ∃ v,
    Yaml.Scalar.read (Yaml.Tag.ofPlain false t) t = .ok v ∧ (IsSpelling v a ↔ ¬Yaml.IsMisread t) := by
  obtain ⟨htag, hkept⟩ | ⟨htag, n, hread, hshort, hkept⟩ := h.read_plain
  · rw [htag]
    exact ⟨_, rfl, iff_of_true (isSpelling_text h) hkept⟩
  · rw [htag]
    refine ⟨_, hread, Iff.trans ?_ hkept⟩
    have hn := isSpelling_int hshort
    exact ⟨fun hv => versionIs_unique hn.version hv.version, fun heq => heq ▸ hn⟩

end Provision.Manifest
