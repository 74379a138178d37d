import Provision.Proofs.Manifest.Shape
import Provision.Proofs.Value
import Provision.Proofs.Workspace.Failures

namespace Provision

open Provision.Text

variable {α β : Type} {K L : Failure → Prop} {P Q : Prop}

def Blames (K : Failure → Prop) (x : Except Failure α) : Prop :=
  ∀ ⦃f⦄, x = .error f → K f

def Failure.Rejects (f : Failure) : Prop :=
  f.kindAsSaid = .malformed ∨ f = .numeral ∨ f = .wrongType

def Failure.RejectsGiven (P : Prop) (f : Failure) : Prop :=
  f.Rejects ∧ (P → f.kind = .malformed)

theorem Failure.Rejects.not_missing {f : Failure} (h : f.Rejects) : f.isMissing = false := by
  obtain h | rfl | rfl := h
  · unfold isMissing kind
    by_cases hwritable : f.quotes.all Value.isWritable
    · rw [if_pos hwritable, h]
    · rw [if_neg hwritable]
  · rfl
  · rfl

theorem Failure.rejectsGiven_of_said {f : Failure} (h : f.kindAsSaid = .malformed)
    (hP : P → f.quotes.all Value.isWritable) : f.RejectsGiven P := by
  refine ⟨Or.inl h, fun hp => ?_⟩
  rw [kind, if_pos (hP hp), h]

theorem Failure.rejectsGiven_numeral (h : ¬P) : Failure.numeral.RejectsGiven P :=
  ⟨Or.inr (Or.inl rfl), fun hp => absurd hp h⟩

theorem Failure.rejectsGiven_wrongType (h : ¬P) : Failure.wrongType.RejectsGiven P :=
  ⟨Or.inr (Or.inr rfl), fun hp => absurd hp h⟩

theorem blames_pure (a : α) : Blames K (pure a) := nofun

theorem blames_throw {f : Failure} (h : K f) : Blames K (throw f : Except Failure α) := by
  intro g hg
  cases hg
  exact h

theorem blames_bind {x : Except Failure α} {g : α → Except Failure β} (hx : Blames K x)
    (hg : ∀ a, x = .ok a → Blames K (g a)) : Blames K (x >>= g) := by
  intro f hf
  obtain hf | ⟨a, ha, hf⟩ := of_bind_eq_error hf
  · exact hx hf
  · exact hg a ha hf

theorem blames_mapM {g : α → Except Failure β} {as : List α} (hg : ∀ a ∈ as, Blames K (g a)) :
    Blames K (as.mapM g) := by
  induction as with
  | nil => exact blames_pure _
  | cons a as ih =>
    obtain ⟨ha, has⟩ := List.forall_mem_cons.mp hg
    rw [List.mapM_cons]
    exact blames_bind ha fun _ _ => blames_bind (ih has) fun _ _ => blames_pure _

theorem Blames.given {x : Except Failure α} (h : Blames (Failure.RejectsGiven P) x) (hQ : Q → P) :
    Blames (Failure.RejectsGiven Q) x :=
  fun _ hf => ⟨(h hf).1, fun hq => (h hf).2 (hQ hq)⟩

theorem blames_said {f : Failure} (h : f.kindAsSaid = .malformed)
    (hP : P → f.quotes.all Value.isWritable) :
    Blames (Failure.RejectsGiven P) (throw f : Except Failure α) :=
  blames_throw (Failure.rejectsGiven_of_said h hP)

theorem blames_requireText (what : String) (v : Value) :
    Blames (Failure.RejectsGiven v.isWritable) (requireText what v) := by
  unfold requireText
  split
  · split
    · exact blames_said rfl fun h => by simpa [Failure.quotes] using h
    · exact blames_pure _
  · exact blames_said rfl fun h => by simpa [Failure.quotes] using h

/-! ### Versions and ranges -/

theorem Version.blames_number (raw piece : List Char) :
    Blames (Failure.RejectsGiven (IsNumerate piece)) (number raw piece) := by
  unfold number
  split
  case isTrue => exact blames_said rfl fun _ => rfl
  case isFalse h =>
    obtain ⟨hne, hdigits⟩ : piece ≠ [] ∧ piece.all isDigit := by simpa using h
    split
    case h_1 => exact blames_pure _
    case h_2 hnone =>
      refine blames_throw (Failure.rejectsGiven_numeral fun hnumerate => ?_)
      have hsome := hnumerate piece (List.infix_refl _) hne hdigits
      rw [hnone] at hsome
      cases hsome

theorem Version.blames_ofTrimmed (raw : List Char) :
    Blames (Failure.RejectsGiven (IsNumerate raw)) (ofTrimmed raw) := by
  have hpieces : ∀ piece ∈ (splitOnChar '.' raw).take 3,
      Blames (Failure.RejectsGiven (IsNumerate raw)) (number raw piece) := fun piece hpiece =>
    (blames_number raw piece).given fun h =>
      h.of_isInfix (infix_of_mem_splitOnChar (List.mem_of_mem_take hpiece))
  refine blames_bind (blames_mapM hpieces) fun numbers _ => ?_
  have hqualified : Blames (Failure.RejectsGiven (IsNumerate raw)) (do
      let qualifier := dotted ((splitOnChar '.' raw).drop 3)
      if !qualifier.all isQualifierChar then throw (.qualifier (.text (String.ofList qualifier)))
      return (⟨numbers.getD 0 0, numbers.getD 1 0, numbers.getD 2 0, String.ofList qualifier⟩ :
        Version)) := by
    dsimp only
    split
    · exact blames_bind (blames_said rfl fun _ => rfl) fun _ _ => blames_pure _
    · exact blames_pure _
  dsimp only
  split
  · exact blames_bind (blames_said rfl fun _ => rfl) fun _ _ => hqualified
  · exact hqualified

theorem Version.blames_ofChars (cs : List Char) :
    Blames (Failure.RejectsGiven (IsNumerate cs)) (ofChars cs) := by
  unfold ofChars
  dsimp only
  split
  · exact blames_pure _
  · exact (blames_ofTrimmed _).given fun h => h.of_isInfix (trim_isInfix cs)

theorem Version.blames_textOf {reject : Value → Failure}
    (hsaid : ∀ v, (reject v).kindAsSaid = .malformed) (hquotes : ∀ v, (reject v).quotes = [v])
    (v : Value) : Blames (Failure.RejectsGiven v.isWritable) (textOf reject v) := by
  unfold textOf
  split
  · exact blames_pure _
  · exact blames_pure _
  · exact blames_pure _
  · rename_i i
    split
    case h_1 => exact blames_pure _
    case h_2 hnone =>
      exact blames_throw (Failure.rejectsGiven_numeral (by simp [Value.isWritable, hnone]))
  · exact blames_said (hsaid _) fun h => by simpa [hquotes] using h

theorem Version.isNumerate_of_textOf {reject : Value → Failure} {v : Value} {s : String}
    (h : textOf reject v = .ok s) (hv : v.IsLegible) : IsNumerate s.toList := by
  unfold textOf at h
  split at h
  · cases h
    exact hv
  · rename_i b
    cases h
    cases b <;> exact isNumerate_of_decimal rfl (by decide)
  · cases h
    exact hv
  · split at h
    · rename_i hs
      cases h
      exact isNumerate_of_intText? hs
    · cases h
  · cases h

theorem Version.blames_ofValue (v : Value) :
    Blames (Failure.RejectsGiven (v.isWritable ∧ v.IsLegible)) (ofValue v) := by
  unfold ofValue
  split
  · exact blames_pure _
  · refine blames_bind ((blames_textOf (fun _ => rfl) (fun _ => rfl) _).given And.left) fun s hs => ?_
    exact (blames_ofChars _).given fun h => isNumerate_of_textOf hs h.2

theorem VersionRange.blames_ofBracketed (raw : List Char) (opening closing : Char)
    (body : List Char) :
    Blames (Failure.RejectsGiven (IsNumerate body)) (ofBracketed raw opening closing body) := by
  have hchecked (r : VersionRange) : Blames (Failure.RejectsGiven (IsNumerate body)) (checked r) := by
    unfold checked
    split
    · exact blames_pure _
    · exact blames_said rfl fun _ => rfl
  unfold ofBracketed
  split
  · exact blames_said rfl fun _ => rfl
  · rename_i lower upper hcut
    obtain ⟨hlower, hupper⟩ := infix_of_cutAt hcut
    have hminimum : Blames (Failure.RejectsGiven (IsNumerate body)) (Version.ofChars lower) :=
      (Version.blames_ofChars lower).given fun h => h.of_isInfix hlower
    have hmaximum :
        Blames (Failure.RejectsGiven (IsNumerate body)) (some <$> Version.ofChars upper) := by
      rw [map_eq_pure_bind]
      refine blames_bind ((Version.blames_ofChars upper).given fun h => h.of_isInfix hupper) ?_
      exact fun _ _ => blames_pure _
    have hbounds : Blames (Failure.RejectsGiven (IsNumerate body)) (do
        let minimum ← Version.ofChars lower
        let maximum ← if upper.all isBlank then pure none else some <$> Version.ofChars upper
        checked ⟨minimum, opening = '[', maximum, closing = ']'⟩) := by
      refine blames_bind hminimum fun minimum _ => ?_
      dsimp only
      split
      · exact blames_bind (blames_pure _) fun _ _ => hchecked _
      · exact blames_bind hmaximum fun _ _ => hchecked _
    by_cases hcomma : upper.contains ','
    · rw [if_pos hcomma]
      exact blames_bind (blames_said rfl fun _ => rfl) fun _ _ => hbounds
    · rw [if_neg hcomma]
      exact hbounds

theorem VersionRange.blames_ofTrimmed (raw : List Char) :
    Blames (Failure.RejectsGiven (IsNumerate raw)) (ofTrimmed raw) := by
  unfold ofTrimmed
  split
  · exact blames_pure _
  · rename_i opening rest
    have hrest : rest.dropLast <:+: opening :: rest :=
      (List.dropLast_prefix rest).isInfix.trans (List.suffix_cons opening rest).isInfix
    split
    · split
      · split
        · exact (blames_ofBracketed _ _ _ _).given fun h => h.of_isInfix hrest
        · exact blames_said rfl fun _ => rfl
      · exact blames_said rfl fun _ => rfl
    · exact blames_bind (Version.blames_ofChars _) fun _ _ => blames_pure _

theorem VersionRange.blames_ofValue (v : Value) :
    Blames (Failure.RejectsGiven (v.isWritable ∧ v.IsLegible)) (ofValue v) := by
  unfold ofValue
  split
  · exact blames_pure _
  · refine blames_bind ((Version.blames_textOf (fun _ => rfl) (fun _ => rfl) _).given And.left) ?_
    intro s hs
    exact (blames_ofTrimmed _).given fun h =>
      (Version.isNumerate_of_textOf hs h.2).of_isInfix (trim_isInfix _)

/-! ### Parts of units -/

theorem blames_capability_ofFields (f : Capability.Fields) :
    Blames (Failure.RejectsGiven (f.namespaceName.isWritable ∧ f.name.isWritable ∧
      f.version.isWritable ∧ f.version.IsLegible)) (Capability.ofFields f) := by
  refine blames_bind ((blames_requireText _ _).given fun h => h.1) fun _ _ => ?_
  refine blames_bind ((blames_requireText _ _).given fun h => h.2.1) fun _ _ => ?_
  exact blames_bind ((Version.blames_ofValue _).given fun h => h.2.2) fun _ _ => blames_pure _

theorem blames_requirement_ofFields (f : Requirement.Fields) :
    Blames (Failure.RejectsGiven (f.namespaceName.isWritable ∧ f.name.isWritable ∧
      ∀ v, f.range = .inl v → v.isWritable ∧ v.IsLegible)) (Requirement.ofFields f) := by
  have hflag {P : Prop} (name what : String) (v : Value) :
      Blames (Failure.RejectsGiven P) (Requirement.requireFlag name what v) := by
    unfold Requirement.requireFlag
    split
    · exact blames_pure _
    · exact blames_said rfl fun _ => rfl
  refine blames_bind ((blames_requireText _ _).given fun h => h.1) fun _ _ => ?_
  refine blames_bind ((blames_requireText _ _).given fun h => h.2.1) fun _ _ => ?_
  have hflags {P : Prop} (namespaceName name : String) (range : VersionRange) :
      Blames (Failure.RejectsGiven P) (do
        let optional ← Requirement.requireFlag name "optional" f.optional
        let greedy ← Requirement.requireFlag name "greedy" f.greedy
        return (⟨namespaceName, name, range, optional, greedy⟩ : Requirement)) :=
    blames_bind (hflag _ _ _) fun _ _ => blames_bind (hflag _ _ _) fun _ _ => blames_pure _
  dsimp only
  split
  · rename_i v hrange
    exact blames_bind ((VersionRange.blames_ofValue v).given fun h => h.2.2 v hrange)
      fun _ _ => hflags _ _ _
  · exact hflags _ _ _

theorem blames_artifact_ofFields (f : Artifact.Fields) :
    Blames (Failure.RejectsGiven (f.classifier.isWritable ∧ f.id.isWritable ∧
      (f.version.isWritable ∧ f.version.IsLegible) ∧ f.path.isWritable)) (Artifact.ofFields f) := by
  have hclassifier (id v : Value) :
      Blames (Failure.RejectsGiven (id.isWritable ∧ v.isWritable))
        (Artifact.requireClassifier id v) := by
    unfold Artifact.requireClassifier
    split
    · split
      · exact blames_pure _
      · exact blames_said rfl fun h => by simpa [Failure.quotes] using h
    · exact blames_said rfl fun h => by simpa [Failure.quotes] using h
  refine blames_bind ((hclassifier _ _).given fun h => ⟨h.2.1, h.1⟩) fun _ _ => ?_
  refine blames_bind ((blames_requireText _ _).given fun h => h.2.1) fun _ _ => ?_
  refine blames_bind ((Version.blames_ofValue _).given fun h => h.2.2.1) fun _ _ => ?_
  exact blames_bind ((blames_requireText _ _).given fun h => h.2.2.2) fun _ _ => blames_pure _

theorem blames_installable_ofFields (c : Conventions) (id version : Value)
    (requires : List Requirement) (provides : List Capability) (artifacts : List Artifact)
    (owner : Option Source) :
    Blames (Failure.RejectsGiven (c.unitNamespace.isWritable ∧ id.isWritable ∧
      version.isWritable ∧ version.IsLegible))
      (Installable.ofFields c id version requires provides artifacts owner) := by
  refine blames_bind ((blames_requireText _ _).given fun h => h.2.1) fun _ _ => ?_
  refine blames_bind ((Version.blames_ofValue _).given fun h => h.2.2) fun _ _ => ?_
  exact blames_bind ((blames_requireText _ _).given fun h => h.1) fun _ _ => blames_pure _

namespace Manifest

def LegibleUnder (key : String) (v : Value) : Prop :=
  ∀ entry, v.opened = .map entry → (get key entry).IsLegible

/-- The parts of an entry are lists, and what is read as a version or a range is legible. -/
structure Orderly (entry : List (Value × Value)) : Prop where
  version : (get "version" entry).IsLegible
  requires : ∃ vs, Lists "requires" entry vs ∧ ∀ v ∈ vs, LegibleUnder "range" v
  provides : ∃ vs, Lists "provides" entry vs ∧ ∀ v ∈ vs, LegibleUnder "version" v
  artifacts : ∃ vs, Lists "artifacts" entry vs ∧ ∀ v ∈ vs, LegibleUnder "version" v

variable {key : String} {entry : List (Value × Value)} {v : Value}

theorem isWritable_getD {usual : Value} (h : Value.entriesAreWritable entry) (hu : usual.isWritable) :
    ((Value.get? key entry).getD usual).isWritable := by
  cases hv : Value.get? key entry with
  | none => exact hu
  | some v => exact Value.isWritable_of_get? h hv

theorem isWritable_get (h : Value.entriesAreWritable entry) : (get key entry).isWritable :=
  isWritable_getD h rfl

theorem entriesAreWritable_of_opened (h : v.isWritable) (hv : v.opened = .map entry) :
    Value.entriesAreWritable entry := by
  have hopened := Value.isWritable_opened h
  rwa [hv, Value.isWritable] at hopened

theorem Lists.isWritable {vs : List Value} (h : Lists key entry vs)
    (hentry : Value.entriesAreWritable entry) : ∀ v ∈ vs, v.isWritable := by
  cases h with
  | none => exact List.forall_mem_nil _
  | list h =>
    have hwritable : (get key entry).isWritable := isWritable_get hentry
    have hopened := Value.isWritable_opened hwritable
    rw [h, Value.isWritable] at hopened
    exact (Value.areWritable_iff vs).mp hopened

theorem blames_flag (place key : String) (usual : Bool) (entry : List (Value × Value)) :
    Blames (Failure.RejectsGiven (Value.entriesAreWritable entry)) (flag place key usual entry) := by
  unfold flag
  split
  · exact blames_pure _
  · exact blames_pure _
  · rename_i v hv
    exact blames_said rfl fun h => by simpa [Failure.quotes] using Value.isWritable_of_get? h hv

theorem blames_versionText (v : Value) :
    Blames (Failure.RejectsGiven v.isWritable) (versionText v) := by
  unfold versionText
  split
  · split
    case h_1 => exact blames_pure _
    case h_2 hnone =>
      exact blames_throw (Failure.rejectsGiven_numeral (by simp [Value.isWritable, hnone]))
  · exact blames_pure _

theorem legible_of_versionText {text : Value} (h : versionText v = .ok text)
    (hv : v.isWritable ∧ v.IsLegible) : text.isWritable ∧ text.IsLegible := by
  unfold versionText at h
  split at h
  · split at h
    · rename_i s hs
      cases h
      exact ⟨rfl, isNumerate_of_intText? hs⟩
    · cases h
  · cases h
    exact hv

def Readable (c : Conventions) (key : String) (v : Value) : Prop :=
  c.unitNamespace.isWritable ∧ v.isWritable ∧ LegibleUnder key v

theorem blames_requirement (c : Conventions) (place : String) (v : Value) :
    Blames (Failure.RejectsGiven (Readable c "range" v)) (requirement c place v) := by
  have hentry (entry : List (Value × Value)) : Blames
      (Failure.RejectsGiven (c.unitNamespace.isWritable ∧ Value.entriesAreWritable entry ∧
        (get "range" entry).IsLegible)) (do
      let range ← versionText (get "range" entry)
      let optional ← flag place "optional" false entry
      let greedy ← flag place "greedy" true entry
      Requirement.ofFields
        { namespaceName := namespaceOf c entry
          name := get "name" entry
          range := .inl range
          optional := .bool optional
          greedy := .bool greedy }) := by
    refine blames_bind ((blames_versionText _).given fun h => isWritable_get h.2.1) fun text htext => ?_
    refine blames_bind ((blames_flag _ _ _ _).given fun h => h.2.1) fun _ _ => ?_
    refine blames_bind ((blames_flag _ _ _ _).given fun h => h.2.1) fun _ _ => ?_
    refine (blames_requirement_ofFields _).given fun h =>
      ⟨isWritable_getD h.2.1 h.1, isWritable_get h.2.1, ?_⟩
    rintro _ ⟨⟩
    exact legible_of_versionText htext ⟨isWritable_get h.2.1, h.2.2⟩
  unfold requirement
  dsimp only
  split
  · refine blames_bind (blames_pure _) fun entry he => (hentry entry).given fun h => ?_
    cases he
    exact ⟨h.1, by simp [Value.entriesAreWritable, Value.isWritable, h.2.1], trivial⟩
  · rename_i entry hmap
    refine blames_bind (blames_pure _) fun entry' he => (hentry entry').given fun h => ?_
    cases he
    exact ⟨h.1, entriesAreWritable_of_opened h.2.1 hmap, h.2.2 entry hmap⟩
  · refine blames_bind (blames_said rfl fun h => ?_) fun _ he => by cases he
    simpa [Failure.quotes] using h.2.1

theorem blames_capability (c : Conventions) (place : String) (v : Value) :
    Blames (Failure.RejectsGiven (Readable c "version" v)) (capability c place v) := by
  unfold capability
  split
  · rename_i entry hmap
    have hentry (h : Readable c "version" v) := entriesAreWritable_of_opened h.2.1 hmap
    refine blames_bind ((blames_versionText _).given fun h => isWritable_get (hentry h)) ?_
    intro text htext
    refine (blames_capability_ofFields _).given fun h =>
      ⟨isWritable_getD (hentry h) h.1, isWritable_get (hentry h), ?_⟩
    exact legible_of_versionText htext ⟨isWritable_get (hentry h), h.2.2 entry hmap⟩
  · exact blames_said rfl fun h => by simpa [Failure.quotes] using h.2.1

theorem blames_artifact (c : Conventions) (place : String) (v : Value) :
    Blames (Failure.RejectsGiven (Readable c "version" v)) (artifact place v) := by
  unfold artifact
  split
  · rename_i entry hmap
    have hentry (h : Readable c "version" v) := entriesAreWritable_of_opened h.2.1 hmap
    refine blames_bind ((blames_versionText _).given fun h => isWritable_get (hentry h)) ?_
    intro text htext
    refine blames_bind ((blames_flag _ _ _ _).given hentry) fun _ _ => ?_
    refine blames_bind ((blames_flag _ _ _ _).given hentry) fun _ _ => ?_
    refine (blames_artifact_ofFields _).given fun h =>
      ⟨isWritable_getD (hentry h) rfl, isWritable_get (hentry h), ?_, isWritable_get (hentry h)⟩
    exact legible_of_versionText htext ⟨isWritable_get (hentry h), h.2.2 entry hmap⟩
  · exact blames_said rfl fun h => by simpa [Failure.quotes] using h.2.1

theorem blames_parts (key : String) (entry : List (Value × Value)) :
    Blames (Failure.RejectsGiven (∃ vs, Lists key entry vs)) (parts key entry) := by
  rintro f hf
  have hlists : ¬∃ vs, Lists key entry vs := by
    rintro ⟨vs, h⟩
    cases hf.symm.trans h.enumerates
  unfold parts at hf
  dsimp only at hf
  split at hf
  · cases hf
  · split at hf
    · cases hf
    · cases hf
      exact Failure.rejectsGiven_wrongType hlists

theorem blames_elements {read : Value → Except Failure α} {c : Conventions} {under : String}
    (hread : ∀ v, Blames (Failure.RejectsGiven (Readable c under v)) (read v))
    (hP : P → c.unitNamespace.isWritable ∧ Value.entriesAreWritable entry ∧
      ∃ vs, Lists key entry vs ∧ ∀ v ∈ vs, LegibleUnder under v) {vs : List Value}
    (hvs : parts key entry = .ok vs) : Blames (Failure.RejectsGiven P) (vs.mapM read) := by
  refine blames_mapM fun v hv => (hread v).given fun hp => ?_
  obtain ⟨hc, hentry, vs', hlists, hlegible⟩ := hP hp
  obtain rfl : vs' = vs := Except.ok.inj (hlists.enumerates.symm.trans hvs)
  exact ⟨hc, hlists.isWritable hentry v hv, hlegible v hv⟩

theorem blames_unitOfFields (c : Conventions) (label : String) (owner : Option Source)
    {id version : Value} (hid : Value.get? "id" entry = some id)
    (hversion : Value.get? "version" entry = some version) :
    Blames (Failure.RejectsGiven (c.unitNamespace.isWritable ∧ Value.entriesAreWritable entry ∧
      Orderly entry)) (unitOfFields c label owner id version entry) := by
  have hversions (h : Value.entriesAreWritable entry ∧ Orderly entry) :
      version.isWritable ∧ version.IsLegible := by
    have hlegible := h.2.version
    rw [get, hversion] at hlegible
    exact ⟨Value.isWritable_of_get? h.1 hversion, hlegible⟩
  have hparts (place : String) :
      Blames (Failure.RejectsGiven (c.unitNamespace.isWritable ∧ Value.entriesAreWritable entry ∧
        Orderly entry)) (do
      let version ← versionText version
      let requires ← (← parts "requires" entry).mapM (requirement c place)
      let provides ← (← parts "provides" entry).mapM (capability c place)
      let artifacts ← (← parts "artifacts" entry).mapM (artifact place)
      Installable.ofFields c id version requires provides artifacts owner) := by
    refine blames_bind ((blames_versionText _).given fun h => (hversions h.2).1) fun text htext => ?_
    refine blames_bind ((blames_parts _ _).given fun h => h.2.2.requires.imp fun _ => And.left) ?_
    refine fun rs hrs => blames_bind (blames_elements (blames_requirement c place)
      (fun h => ⟨h.1, h.2.1, h.2.2.requires⟩) hrs) fun requires _ => ?_
    refine blames_bind ((blames_parts _ _).given fun h => h.2.2.provides.imp fun _ => And.left) ?_
    refine fun ks hks => blames_bind (blames_elements (blames_capability c place)
      (fun h => ⟨h.1, h.2.1, h.2.2.provides⟩) hks) fun provides _ => ?_
    refine blames_bind ((blames_parts _ _).given fun h => h.2.2.artifacts.imp fun _ => And.left) ?_
    refine fun as has => blames_bind (blames_elements (blames_artifact c place)
      (fun h => ⟨h.1, h.2.1, h.2.2.artifacts⟩) has) fun artifacts _ => ?_
    exact (blames_installable_ofFields _ _ _ _ _ _ _).given fun h =>
      ⟨h.1, Value.isWritable_of_get? h.2.1 hid, legible_of_versionText htext (hversions h.2)⟩
  unfold unitOfFields
  dsimp only
  split
  case isTrue hunwritable =>
    refine blames_bind (blames_throw (Failure.rejectsGiven_numeral fun h => ?_)) fun _ _ => hparts _
    rw [Value.isWritable_of_get? h.2.1 hid] at hunwritable
    cases hunwritable
  case isFalse => exact hparts _

/-- What is needed of the value of a unit for it to be malformed at worst. -/
def OrderlyUnit (v : Value) : Prop :=
  v.isWritable ∧ ∀ entry, v.opened = .map entry → Orderly entry

theorem blames_unit (c : Conventions) (label : String) (owner : Option Source) (position : Nat)
    (v : Value) : Blames (Failure.RejectsGiven (c.unitNamespace.isWritable ∧ OrderlyUnit v))
      (unit c label owner position v) := by
  unfold unit
  dsimp only
  split
  · rename_i entry hmap
    split
    · rename_i id version hid hversion
      exact (blames_unitOfFields c label owner hid hversion).given fun h =>
        ⟨h.1, entriesAreWritable_of_opened h.2.1 hmap, h.2.2 entry hmap⟩
    · exact blames_said rfl fun _ => rfl
  · exact blames_said rfl fun h => by simpa [Failure.quotes] using h.2.1

/-- Nothing is missing where the units of a document cannot be read. Where all of them are orderly, one
of them is malformed. -/
theorem blames_units (c : Conventions) (label : String) (owner : Option Source) (d : Document) :
    Blames (Failure.RejectsGiven (c.unitNamespace.isWritable ∧
      ∃ vs, Lists "units" d vs ∧ ∀ v ∈ vs, OrderlyUnit v)) (units c label owner d) := by
  have hunits (position : Nat) (vs : List Value) :
      Blames (Failure.RejectsGiven (c.unitNamespace.isWritable ∧ ∀ v ∈ vs, OrderlyUnit v))
        (unitsFrom c label owner position vs) := by
    induction vs generalizing position with
    | nil => exact blames_pure _
    | cons v vs ih =>
      refine blames_bind ((blames_unit c label owner position v).given fun h =>
        ⟨h.1, h.2 v List.mem_cons_self⟩) fun _ _ => ?_
      refine blames_bind ((ih (position + 1)).given fun h => ⟨h.1, fun x hx => ?_⟩)
        fun _ _ => blames_pure _
      exact h.2 x (List.mem_cons_of_mem v hx)
  refine blames_bind ((blames_parts _ _).given fun h => h.2.imp fun _ => And.left) fun vs hvs => ?_
  refine (hunits 0 vs).given fun ⟨hc, vs', hlists, horderly⟩ => ⟨hc, ?_⟩
  obtain rfl : vs' = vs := Except.ok.inj (hlists.enumerates.symm.trans hvs)
  exact horderly

end Manifest

end Provision
