import Provision.Manifest
import Provision.Proofs.Failure

namespace Provision.Manifest

def FlagIs (key : String) (usual : Bool) (entry : List (Value × Value)) (b : Bool) : Prop :=
  (Value.get? key entry = none ∧ b = usual) ∨ Value.get? key entry = some (.bool b)

def VersionIs (v : Value) (version : Version) : Prop :=
  ∃ text, versionText v = .ok text ∧ Version.ofValue text = .ok version

structure StatesRequirement (c : Conventions) (entry : List (Value × Value)) (r : Requirement) :
    Prop where
  namespaceName : requireText "requirement namespace" (namespaceOf c entry) = .ok r.namespaceName
  name : requireText "requirement name" (get "name" entry) = .ok r.name
  range : ∃ text, versionText (get "range" entry) = .ok text ∧ VersionRange.ofValue text = .ok r.range
  optional : FlagIs "optional" false entry r.optional
  greedy : FlagIs "greedy" true entry r.greedy

structure StatesCapability (c : Conventions) (entry : List (Value × Value)) (k : Capability) :
    Prop where
  namespaceName : requireText "capability namespace" (namespaceOf c entry) = .ok k.namespaceName
  name : requireText "capability name" (get "name" entry) = .ok k.name
  version : VersionIs (get "version" entry) k.version

structure StatesArtifact (entry : List (Value × Value)) (a : Artifact) : Prop where
  classifier : (Value.get? "classifier" entry).getD (.text (Classifier.text .bundle)) =
    .text a.classifier.text
  id : requireText "artifact id" (get "id" entry) = .ok a.id
  version : VersionIs (get "version" entry) a.version
  path : requireText ("artifact " ++ a.id ++ " path") (get "path" entry) = .ok a.path
  isFragment : ∃ b, FlagIs "fragment" false entry b ∧ a.isFragment = .bool b
  isSingleton : ∃ b, FlagIs "singleton" false entry b ∧ a.isSingleton = .bool b

def Stated (states : List (Value × Value) → α → Prop) (v : Value) (a : α) : Prop :=
  ∃ entry, v.opened = .map entry ∧ states entry a

/-- A requirement is also stated by the name of a unit alone. -/
def RequirementStated (c : Conventions) (v : Value) (r : Requirement) : Prop :=
  Stated (StatesRequirement c) v r ∨
    ∃ s, v.opened = .text s ∧ StatesRequirement c [(.text "name", v)] r

/-- The capabilities of a unit: the declared ones, behind its identity unless that is one of them. -/
def WithIdentity (self : Capability) (declared all : List Capability) : Prop :=
  (self ∈ declared ∧ all = declared) ∨ (self ∉ declared ∧ all = self :: declared)

/-- The unit of an entry, whose parts are those that are listed under their keys. -/
structure StatesUnit (listed : String → List (Value × Value) → List Value → Prop)
    (c : Conventions) (owner : Option Source) (entry : List (Value × Value)) (u : Installable) :
    Prop where
  id : ∃ v, Value.get? "id" entry = some v ∧ requireText "unit id" v = .ok u.id
  version : ∃ v, Value.get? "version" entry = some v ∧ VersionIs v u.version
  requires : ∃ vs, listed "requires" entry vs ∧ List.Forall₂ (RequirementStated c) vs u.requires
  provides : ∃ vs declared namespaceName, listed "provides" entry vs ∧
    List.Forall₂ (Stated (StatesCapability c)) vs declared ∧
    requireText "capability namespace" c.unitNamespace = .ok namespaceName ∧
    WithIdentity (Installable.identity namespaceName u.id u.version) declared u.provides
  artifacts : ∃ vs, listed "artifacts" entry vs ∧ List.Forall₂ (Stated StatesArtifact) vs u.artifacts
  owner : u.owner = owner

/-- An entry has a list under a key; one that is absent or null has no elements. -/
inductive Lists (key : String) (entry : List (Value × Value)) : List Value → Prop where
  | none (h : get key entry = .null) : Lists key entry []
  | list {vs} (h : (get key entry).opened = .list vs) : Lists key entry vs

/-- An entry enumerates values under a key: it has a list there, or anything else that is taken for
one. -/
def Enumerates (key : String) (entry : List (Value × Value)) (vs : List Value) : Prop :=
  parts key entry = .ok vs

/-! ### Reading -/

theorem flag_eq_ok_iff {place key : String} {usual : Bool} {entry : List (Value × Value)} {b : Bool} :
    flag place key usual entry = .ok b ↔ FlagIs key usual entry b := by
  unfold flag FlagIs
  split
  · rename_i h
    rw [pure_eq_ok_iff, h, eq_comm]
    simp
  · rename_i b' h
    simp [h, pure_eq_ok_iff]
  · rename_i v hv h
    rw [h, throw_eq_ok_iff]
    simpa using hv b

theorem readRequirement_eq_ok_iff {c : Conventions} {place : String} {entry : List (Value × Value)}
    {r : Requirement} :
    (do
      let range ← versionText (get "range" entry)
      let optional ← flag place "optional" false entry
      let greedy ← flag place "greedy" true entry
      Requirement.ofFields
        { namespaceName := namespaceOf c entry
          name := get "name" entry
          range := .inl range
          optional := .bool optional
          greedy := .bool greedy }) = .ok r ↔ StatesRequirement c entry r := by
  simp only [Requirement.ofFields, Requirement.requireFlag, bind_eq_ok_iff, flag_eq_ok_iff,
    pure_eq_ok_iff, exists_eq_left']
  constructor
  · rintro ⟨text, htext, optional, hoptional, greedy, hgreedy, namespaceName, hnamespace, name, hname,
      range, hrange, rfl⟩
    exact ⟨hnamespace, hname, ⟨text, htext, hrange⟩, hoptional, hgreedy⟩
  · rintro ⟨hnamespace, hname, ⟨text, htext, hrange⟩, hoptional, hgreedy⟩
    exact ⟨text, htext, _, hoptional, _, hgreedy, _, hnamespace, _, hname, _, hrange, rfl⟩

theorem requirement_eq_ok_iff {c : Conventions} {place : String} {v : Value} {r : Requirement} :
    requirement c place v = .ok r ↔ RequirementStated c v r := by
  unfold requirement RequirementStated Stated
  dsimp only
  split
  · rename_i s h
    rw [pure_bind, readRequirement_eq_ok_iff]
    simp [h]
  · rename_i entry h
    rw [pure_bind, readRequirement_eq_ok_iff]
    simp [h]
  · rename_i htext hmap
    simp only [bind_eq_ok_iff, throw_eq_ok_iff, false_and, exists_false, false_iff]
    rintro (⟨entry, h, -⟩ | ⟨s, h, -⟩)
    · exact hmap entry h
    · exact htext s h

theorem capability_eq_ok_iff {c : Conventions} {place : String} {v : Value} {k : Capability} :
    capability c place v = .ok k ↔ Stated (StatesCapability c) v k := by
  unfold capability Stated
  split
  · rename_i entry h
    simp only [Capability.ofFields, bind_eq_ok_iff, pure_eq_ok_iff, h, Value.map.injEq, exists_eq_left']
    constructor
    · rintro ⟨text, htext, namespaceName, hnamespace, name, hname, version, hversion, rfl⟩
      exact ⟨hnamespace, hname, text, htext, hversion⟩
    · rintro ⟨hnamespace, hname, text, htext, hversion⟩
      exact ⟨text, htext, _, hnamespace, _, hname, _, hversion, rfl⟩
  · rename_i hmap
    simp only [throw_eq_ok_iff, false_iff]
    rintro ⟨entry, h, -⟩
    exact hmap entry h

theorem requireClassifier_eq_ok_iff {id v : Value} {k : Classifier} :
    Artifact.requireClassifier id v = .ok k ↔ v = .text k.text := by
  unfold Artifact.requireClassifier Classifier.ofText?
  split
  · rename_i s
    rw [Value.text.injEq]
    by_cases hbundle : s = Classifier.text .bundle
    · subst hbundle
      cases k <;> simp [pure_eq_ok_iff, Classifier.text]
    · by_cases hfeature : s = Classifier.text .feature
      · subst hfeature
        cases k <;> simp [pure_eq_ok_iff, Classifier.text]
      · simp only [hbundle, hfeature, ↓reduceIte, throw_eq_ok_iff, false_iff]
        cases k <;> assumption
  · rename_i hv
    simp only [throw_eq_ok_iff, false_iff]
    exact hv _

theorem artifact_eq_ok_iff {place : String} {v : Value} {a : Artifact} :
    artifact place v = .ok a ↔ Stated StatesArtifact v a := by
  unfold artifact Stated
  split
  · rename_i entry h
    simp only [Artifact.ofFields, bind_eq_ok_iff, pure_eq_ok_iff, flag_eq_ok_iff,
      requireClassifier_eq_ok_iff, h, Value.map.injEq, exists_eq_left']
    constructor
    · rintro ⟨text, htext, isFragment, hfragment, isSingleton, hsingleton, classifier, hclassifier,
        id, hid, version, hversion, path, hpath, rfl⟩
      exact ⟨hclassifier, hid, ⟨text, htext, hversion⟩, hpath, ⟨_, hfragment, rfl⟩,
        ⟨_, hsingleton, rfl⟩⟩
    · rintro ⟨hclassifier, hid, ⟨text, htext, hversion⟩, hpath, ⟨isFragment, hfragment, hf⟩,
        ⟨isSingleton, hsingleton, hs⟩⟩
      obtain ⟨classifier, id, version, path, _, _⟩ := a
      obtain rfl := hf
      obtain rfl := hs
      exact ⟨text, htext, _, hfragment, _, hsingleton, _, hclassifier, _, hid, _, hversion, _, hpath,
        rfl⟩
  · rename_i hmap
    simp only [throw_eq_ok_iff, false_iff]
    rintro ⟨entry, h, -⟩
    exact hmap entry h

theorem isWritable_of_requireText {what s : String} {v : Value} (h : requireText what v = .ok s) :
    v.isWritable := by
  unfold requireText at h
  split at h
  · rfl
  · cases h

theorem withIdentity_iff {self : Capability} {declared all : List Capability} :
    WithIdentity self declared all ↔
      (if self ∈ declared then declared else self :: declared) = all := by
  unfold WithIdentity
  split
  case isTrue h => simp [h, eq_comm]
  case isFalse h => simp [h, eq_comm]

theorem unitOfFields_eq_ok_iff {c : Conventions} {label : String} {owner : Option Source}
    {id version : Value} {entry : List (Value × Value)} (hid : Value.get? "id" entry = some id)
    (hversion : Value.get? "version" entry = some version) {u : Installable} :
    unitOfFields c label owner id version entry = .ok u ↔
      StatesUnit Enumerates c owner entry u := by
  unfold unitOfFields
  cases hwritable : id.isWritable with
  | false =>
    -- Only a text is an id, and texts can be written.
    simp only [Bool.not_false, ↓reduceIte, bind_eq_ok_iff, throw_eq_ok_iff, false_and, exists_false,
      false_iff]
    rintro ⟨⟨id', hid', htext⟩, -, -, -, -, -⟩
    obtain rfl := Option.some.inj (hid.symm.trans hid')
    rw [isWritable_of_requireText htext] at hwritable
    cases hwritable
  | true =>
    simp only [Bool.not_true, Bool.false_eq_true, ↓reduceIte, bind_eq_ok_iff, pure_eq_ok_iff,
      mapM_eq_ok_iff, requirement_eq_ok_iff, capability_eq_ok_iff, artifact_eq_ok_iff,
      Installable.ofFields, Installable.build]
    constructor
    · rintro ⟨text, htext, rs, hrs, requires, hrequires, ks, hks, declared, hdeclared, as, has,
        artifacts, hartifacts, id', hid', version', hversion', namespaceName, hnamespace, rfl⟩
      exact ⟨⟨id, hid, hid'⟩, ⟨version, hversion, text, htext, hversion'⟩, ⟨rs, hrs, hrequires⟩,
        ⟨ks, declared, namespaceName, hks, hdeclared, hnamespace, withIdentity_iff.mpr rfl⟩,
        ⟨as, has, hartifacts⟩, rfl⟩
    · rintro ⟨⟨id', hid', htextId⟩, ⟨version', hversion', text, htext, hread⟩, ⟨rs, hrs, hrequires⟩,
        ⟨ks, declared, namespaceName, hks, hdeclared, hnamespace, hall⟩, ⟨as, has, hartifacts⟩, howner⟩
      obtain rfl := Option.some.inj (hid.symm.trans hid')
      obtain rfl := Option.some.inj (hversion.symm.trans hversion')
      obtain rfl := howner
      refine ⟨text, htext, rs, hrs, _, hrequires, ks, hks, declared, hdeclared, as, has, _, hartifacts,
        _, htextId, _, hread, namespaceName, hnamespace, ?_⟩
      rw [withIdentity_iff.mp hall]

/-- A unit owned by a repository is what its entry states, whatever the repository is called. -/
theorem unit_eq_ok_iff {c : Conventions} {label : String} {owner : Option Source} {position : Nat}
    {v : Value} {u : Installable} :
    unit c label owner position v = .ok u ↔ Stated (StatesUnit Enumerates c owner) v u := by
  unfold unit Stated
  dsimp only
  split
  · rename_i entry h
    simp only [h, Value.map.injEq, exists_eq_left']
    split
    · rename_i id version hid hversion
      exact unitOfFields_eq_ok_iff hid hversion
    · rename_i hnone
      simp only [throw_eq_ok_iff, false_iff]
      rintro ⟨⟨id, hid, -⟩, ⟨version, hversion, -⟩, -, -, -, -⟩
      exact hnone id version hid hversion
  · rename_i hmap
    simp only [throw_eq_ok_iff, false_iff]
    rintro ⟨entry, h, -⟩
    exact hmap entry h

theorem units_eq_ok_iff {c : Conventions} {label : String} {owner : Option Source} {d : Document}
    {us : List Installable} :
    units c label owner d = .ok us ↔ ∃ vs, Enumerates "units" d vs ∧
      List.Forall₂ (Stated (StatesUnit Enumerates c owner)) vs us := by
  have hunits (position : Nat) (vs : List Value) (us : List Installable) :
      unitsFrom c label owner position vs = .ok us ↔
        List.Forall₂ (Stated (StatesUnit Enumerates c owner)) vs us := by
    induction vs generalizing position us with
    | nil => rw [unitsFrom, pure_eq_ok_iff, List.forall₂_nil_left_iff, eq_comm]
    | cons v vs ih =>
      simp only [unitsFrom, bind_eq_ok_iff, pure_eq_ok_iff, unit_eq_ok_iff, ih,
        List.forall₂_cons_left_iff]
      constructor
      · rintro ⟨u, hu, us, hus, rfl⟩
        exact ⟨u, us, hu, hus, rfl⟩
      · rintro ⟨u, us, hu, hus, rfl⟩
        exact ⟨u, hu, us, hus, rfl⟩
  simp only [units, bind_eq_ok_iff, hunits]
  rfl

/-! ### Lists -/

theorem Lists.enumerates {key : String} {entry : List (Value × Value)} {vs : List Value}
    (h : Lists key entry vs) : Enumerates key entry vs := by
  unfold Enumerates parts
  cases h with
  | none h => rw [h]; rfl
  | list h =>
    dsimp only
    split
    case isTrue hempty =>
      have hopened : (get key entry).opened = get key entry := by
        cases hv : get key entry with
        | knot label v =>
          rw [hv] at hempty
          cases hempty
        | _ => rfl
      rw [← hopened, h] at hempty
      rw [List.isEmpty_iff.mp hempty]
      rfl
    case isFalse =>
      rw [Value.elements?, h]
      rfl

end Provision.Manifest
