import Provision.Proofs.Json.Respelling
import Provision.Proofs.Yaml.Following

namespace Provision.Manifest

open Provision.Text

variable {origin : String} {cs cs' : List Char} {v w : Value}

/-- Texts of manifests that are the same but for quotes around versions and ranges. -/
inductive Requoted (origin : String) (cs cs' : List Char) : Prop
  /-- YAML with plain scalars and quoted ones. -/
  | yaml (hread : (load cs origin).fellBack = false) (hname : isJsonName origin = false)
      (h : Yaml.Requoted (Yaml.Tokens.ofStream (.ofCharacters cs)).settled
        (Yaml.Tokens.ofStream (.ofCharacters cs')).settled)
      (hending : (Yaml.Tokens.ofStream (.ofCharacters cs')).ending =
        (Yaml.Tokens.ofStream (.ofCharacters cs)).ending)
  /-- JSON with numbers and texts. -/
  | json (hread : isJsonName origin ∨ (load cs origin).fellBack ∧ (load cs' origin).fellBack)
      (h : Json.Requoted false cs cs')

def DocumentsAlike (x y : Except Failure Document) : Prop :=
  (∃ f, x = .error f ∧ y = .error f) ∨ ∃ d d', x = .ok d ∧ y = .ok d' ∧ RespelledEntries d d'

theorem documentsAlike_error (f : Failure) : DocumentsAlike (.error f) (.error f) :=
  Or.inl ⟨f, rfl, rfl⟩

theorem documentsAlike_of_respelled (h : Respelled v w) :
    DocumentsAlike (documentOf origin v) (documentOf origin w) := by
  have hopened := h.opened
  unfold documentOf
  generalize v.opened = a, w.opened = b at hopened
  cases hopened with
  | list | knot => exact documentsAlike_error _
  | single hsingle =>
    cases a with
    | map => cases hsingle
    | _ => exact documentsAlike_error _
  | @map d d' hentries =>
    have hunits := hentries.get?_of_not (by decide : ¬IsVersionKey "units")
    dsimp only
    generalize Value.get? "units" d = a, Value.get? "units" d' = b at hunits
    cases hunits with
    | none => exact Or.inr ⟨d, d', rfl, rfl, hentries⟩
    | @some x y hunits =>
      have hlist := hunits.opened
      simp only [Option.map_some]
      generalize x.opened = a, y.opened = b at hlist
      cases hlist with
      | list => exact Or.inr ⟨d, d', rfl, rfl, hentries⟩
      | map | knot => exact documentsAlike_error _
      | single hsingle =>
        cases a with
        | list => cases hsingle
        | _ => exact documentsAlike_error _

theorem documentsAlike_readJson (language : String) (h : Json.Requoted false cs cs') :
    DocumentsAlike (do documentOf origin (← readJson origin language cs))
      (do documentOf origin (← readJson origin language cs')) := by
  unfold readJson
  obtain ⟨f, hf, hf'⟩ | ⟨v, w, hv, hw, hvalue⟩ := Json.read_requoted h
  · rw [hf, hf']
    cases f <;> exact documentsAlike_error _
  · rw [hv, hw]
    exact documentsAlike_of_respelled hvalue

theorem result_of_fellBack (h : (load cs origin).fellBack) :
    (load cs origin).result = (do documentOf origin (← readJson origin "yaml" cs)) := by
  unfold load at *
  split at h
  case isTrue => cases h
  case isFalse hname =>
    rw [if_neg hname]
    split at h
    · cases h
    · cases h
    · rfl

/-- Texts that differ in the quotes around versions have no document for the same reason, or have
documents that differ in the spelling of versions. -/
theorem Requoted.documentsAlike (h : Requoted origin cs cs') :
    DocumentsAlike (load cs origin).result (load cs' origin).result := by
  cases h with
  | yaml hread hname h hending =>
    unfold load at hread ⊢
    rw [hname, if_neg Bool.false_ne_true] at hread
    rw [hname, if_neg Bool.false_ne_true, if_neg Bool.false_ne_true]
    obtain ⟨f, hf, hf'⟩ | ⟨v, w, hv, hw, hvalue⟩ := Yaml.read_requoted h hending
    · rw [hf] at hread ⊢
      rw [hf']
      cases f with
      | failure cause => exact documentsAlike_error cause
      | illFormed | cut => cases hread
    · rw [hv, hw]
      exact documentsAlike_of_respelled hvalue
  | json hread h =>
    by_cases hname : isJsonName origin
    · unfold load
      rw [if_pos hname, if_pos hname]
      exact documentsAlike_readJson "json" h
    · obtain ⟨hback, hback'⟩ := hread.resolve_left hname
      rw [result_of_fellBack hback, result_of_fellBack hback']
      exact documentsAlike_readJson "yaml" h

/-! ### Units -/

def unitsOf (c : Conventions) (label : String) (owner : Option Source) (origin : String)
    (cs : List Char) : Except Failure (List Installable) := do
  units c label owner (← (load cs origin).result)

theorem Requoted.unitsOf_eq_ok_iff {c : Conventions} {label : String} {owner : Option Source}
    {us : List Installable} (h : Requoted origin cs cs') :
    unitsOf c label owner origin cs = .ok us ↔ unitsOf c label owner origin cs' = .ok us := by
  unfold unitsOf
  obtain ⟨f, hf, hf'⟩ | ⟨d, d', hd, hd', hentries⟩ := h.documentsAlike
  · rw [hf, hf']
  · rw [hd, hd']
    exact hentries.units_eq_ok_iff

/-- A value under the key of a version or of a range is read as a version, which a unit has then, and
which is the least of a requirement's range. -/
structure StandsFor (v : Value) (a : Version) : Prop where
  spelling : IsSpelling v a
  unit {c : Conventions} {label : String} {owner : Option Source} {position : Nat}
    {entry : List (Value × Value)} {u : Installable} :
    Manifest.unit c label owner position (.map entry) = .ok u →
      Value.get? "version" entry = some v → u.version = a
  requirement {c : Conventions} {place : String} {entry : List (Value × Value)} {r : Requirement} :
    Manifest.requirement c place (.map entry) = .ok r →
      Value.get? "range" entry = some v → r.range = { minimum := a }

theorem IsSpelling.standsFor {a : Version} (h : IsSpelling v a) : StandsFor v a where
  spelling := h
  unit hu hv := by
    obtain ⟨entry, ⟨⟩, hstated⟩ := unit_eq_ok_iff.mp hu
    obtain ⟨w, hw, hversion⟩ := hstated.version
    obtain rfl := Option.some.inj (hv.symm.trans hw)
    exact versionIs_unique hversion h.version
  requirement hr hv := by
    obtain ⟨entry, ⟨⟩, hstated⟩ | ⟨s, ⟨⟩, -⟩ := requirement_eq_ok_iff.mp hr
    have hrange := hstated.range
    rw [get, hv] at hrange
    exact rangeIs_unique hrange h.range

/-- A version text stands for its version in quotes, as a number of JSON, and as a plain scalar exactly
where it is not misread. Manifests that differ in such quotes have the same units. -/
theorem units_of_unquoted {t : String} {a : Version} (h : Yaml.IsVersionText t a) :
    StandsFor (.text t) a ∧
      (∃ v, Yaml.Scalar.read (Yaml.Tag.ofPlain false t) t = .ok v ∧
        (StandsFor v a ↔ ¬Yaml.IsMisread t)) ∧
      (∀ {v : Value} {rest : List Char},
        Json.readNumber .asText [] (t.toList ++ rest) = .ok (v, rest) → StandsFor v a) ∧
      ∀ {origin : String} {cs cs' : List Char}, Requoted origin cs cs' →
        ∀ (c : Conventions) (label : String) (owner : Option Source) (us : List Installable),
          unitsOf c label owner origin cs = .ok us ↔ unitsOf c label owner origin cs' = .ok us := by
  have hquoted := isSpelling_text h
  refine ⟨hquoted.standsFor, ?_, fun hnumber => ?_, fun hcs c label owner us => hcs.unitsOf_eq_ok_iff⟩
  · obtain ⟨v, hv, hspelling⟩ := isSpelling_plain_iff h
    refine ⟨v, hv, fun hstands => ?_, fun hmisread => ?_⟩
    · exact hspelling.mp hstands.spelling
    · exact (hspelling.mpr hmisread).standsFor
  · obtain ⟨-, -, halike⟩ := Json.alike_of_readNumber h hnumber
    exact (hquoted.of_alike halike.symm).standsFor

theorem isVersionText_fraction : Yaml.IsVersionText "1.10" ⟨1, 10, 0, ""⟩ where
  ascii := by simp
  trimmed := by decide
  ne := by decide
  read := rfl

def yamlText (version : String) : List Char :=
  ("units:\n- id: a\n  version: " ++ version ++ "\n").toList

def versionsOf (cs : List Char) : Except Failure (List Version) :=
  (unitsOf {} "R" none "units.yaml" cs).map fun us => us.map Installable.version

def yamlTokens (version : Yaml.Token) : List Yaml.Token :=
  [.blockMappingStart, .key, .scalar "units" true, .value, .blockEntry, .blockMappingStart, .key,
    .scalar "id" true, .value, .scalar "a" true, .key, .scalar "version" true, .value, version,
    .blockEnd, .blockEnd]

theorem tokens_plain : Yaml.Tokens.ofStream (.ofCharacters (yamlText "1.10")) =
    ⟨yamlTokens (.scalar "1.10" true), none⟩ := by
  rfl

theorem tokens_quoted : Yaml.Tokens.ofStream (.ofCharacters (yamlText "\"1.10\"")) =
    ⟨yamlTokens (.scalar "1.10" false), none⟩ := by
  rfl

theorem requoted_fraction : Requoted "units.yaml" (yamlText "1.10") (yamlText "\"1.10\"") := by
  have hkept : Yaml.IsKept "1.10" :=
    ⟨⟨_, isVersionText_fraction⟩, fun hmisread => absurd hmisread.1.1 (by decide)⟩
  refine .yaml (by decide +kernel) (by decide) ?_ ?_
  · rw [tokens_plain, tokens_quoted]
    iterate 10 refine .cons _ ?_
    exact .version (Or.inl rfl) hkept (.refl _)
  · rw [tokens_plain, tokens_quoted]

theorem units_of_unquoted_fraction : Yaml.IsVersionText "1.10" ⟨1, 10, 0, ""⟩ ∧
    versionsOf (yamlText "1.10") = .ok [⟨1, 10, 0, ""⟩] := by
  refine ⟨isVersionText_fraction, ?_⟩
  obtain ⟨-, -, -, hsame⟩ := units_of_unquoted isVersionText_fraction
  have hquoted : (versionsOf (yamlText "\"1.10\"")).toOption = some [⟨1, 10, 0, ""⟩] := by decide +kernel
  unfold versionsOf at *
  cases hus : unitsOf {} "R" none "units.yaml" (yamlText "\"1.10\"") with
  | error f =>
    rw [hus] at hquoted
    cases hquoted
  | ok us =>
    rw [hus] at hquoted
    rw [(hsame requoted_fraction {} "R" none us).mpr hus]
    exact congrArg Except.ok (Option.some.inj hquoted)

theorem not_versionsOf_unquoted : ¬∀ (t : String) (a : Version), Yaml.IsVersionText t a →
    versionsOf (yamlText t) = versionsOf (yamlText ("\"" ++ t ++ "\"")) := by
  intro h
  have hsame := h "010" ⟨10, 0, 0, ""⟩ ⟨by simp, by decide, by decide, rfl⟩
  have hplain : (versionsOf (yamlText "010")).toOption = some [⟨8, 0, 0, ""⟩] := by decide +kernel
  have hquoted : (versionsOf (yamlText ("\"" ++ "010" ++ "\""))).toOption = some [⟨10, 0, 0, ""⟩] := by
    decide +kernel
  rw [hsame, hquoted] at hplain
  exact absurd hplain (by decide)

end Provision.Manifest
