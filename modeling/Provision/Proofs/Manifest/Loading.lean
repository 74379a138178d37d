import Provision.Proofs.Workspace.Failures

namespace Provision.Manifest

open Provision.Text

variable {f : Failure} {cs : List Char} {origin : String}

def IsUnparsable (cs : List Char) (origin : String) : Prop :=
  Json.read .asText cs = .error .illFormed ∧ (isJsonName origin = false →
    ∃ e, Yaml.read false (.ofCharacters cs) = .error e ∧ ∀ cause, e ≠ .failure cause)

/-- A text may have the form of a document, but makes up none: there is a scalar that its type cannot
hold, or there are too many levels. -/
inductive Unbuilt (cs : List Char) (origin : String) : Failure → Prop where
  | yaml {cause} (hname : isJsonName origin = false)
      (h : Yaml.read false (.ofCharacters cs) = .error (.failure cause)) : Unbuilt cs origin cause
  | numeral (h : Json.read .asText cs = .error .numeral) : Unbuilt cs origin .numeral
  | tooDeep (h : Json.read .asText cs = .error .tooDeep) : Unbuilt cs origin .exhausted

def language (origin : String) : String :=
  if isJsonName origin then "json" else "yaml"

theorem load_of_isUnparsable (h : IsUnparsable cs origin) :
    (load cs origin).result = .error (.unparsable origin (language origin)) := by
  obtain ⟨hjson, hyaml⟩ := h
  unfold load language
  cases hname : isJsonName origin with
  | true =>
    simp only [readJson, hjson]
    rfl
  | false =>
    obtain ⟨e, he, hform⟩ := hyaml hname
    simp only [readJson, hjson, he]
    cases e with
    | failure cause => exact absurd rfl (hform cause)
    | illFormed | cut => rfl

theorem of_readJson {language : String} (h : readJson origin language cs = .error f) :
    f.isMissing ∨ Unbuilt cs origin f := by
  unfold readJson at h
  split at h <;> cases h
  case h_2 => exact Or.inl rfl
  case h_3 hread => exact Or.inr (.numeral hread)
  case h_4 hread => exact Or.inr (.tooDeep hread)

theorem missing_of_documentOf {v : Value} (h : documentOf origin v = .error f) : f.isMissing := by
  unfold documentOf at h
  split at h
  · split at h <;> cases h
    rfl
  · cases h
    rfl

/-- A manifest without document is passed over, unless its text makes up none. -/
theorem missing_or_unbuilt_of_load (h : (load cs origin).result = .error f) :
    f.isMissing ∨ Unbuilt cs origin f := by
  have hjson {language : String}
      (h : (do documentOf origin (← readJson origin language cs)) = .error f) :
      f.isMissing ∨ Unbuilt cs origin f := by
    obtain h | ⟨v, -, h⟩ := of_bind_eq_error h
    · exact of_readJson h
    · exact Or.inl (missing_of_documentOf h)
  unfold load at h
  split at h
  case isTrue => exact hjson h
  case isFalse hname =>
    split at h
    case h_1 => exact Or.inl (missing_of_documentOf h)
    case h_2 cause hyaml =>
      cases h
      exact Or.inr (.yaml (Bool.eq_false_iff.mpr hname) hyaml)
    case h_3 => exact hjson h

end Provision.Manifest
