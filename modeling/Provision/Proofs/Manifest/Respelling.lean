import Provision.Proofs.Manifest.Alike

namespace Provision.Manifest

open Provision.Text

def isSingle : Value → Bool
  | .pair _ _ | .list _ | .map _ | .knot _ _ => false
  | _ => true

def isWord : Value → Bool
  | .int _ | .text _ => true
  | _ => false

def isPair : Value → Bool
  | .pair _ _ | .knot _ (.pair _ _) => true
  | _ => false

mutual

/-- A value with versions and ranges that are spelled otherwise. -/
inductive Respelled : Value → Value → Prop
  | single {v} (h : isSingle v) : Respelled v v
  | list {vs ws} (h : RespelledItems vs ws) : Respelled (.list vs) (.list ws)
  | map {es fs} (h : RespelledEntries es fs) : Respelled (.map es) (.map fs)
  | knot {label v w} (h : Respelled v w) : Respelled (.knot label v) (.knot label w)

/-- The items of lists; pairs are no entries of manifests, whatever they hold. -/
inductive RespelledItems : List Value → List Value → Prop
  | nil : RespelledItems [] []
  | cons {v w vs ws} (h : Respelled v w) (hs : RespelledItems vs ws) :
      RespelledItems (v :: vs) (w :: ws)
  | pair {v w vs ws} (hv : isPair v) (hw : isPair w) (hs : RespelledItems vs ws) :
      RespelledItems (v :: vs) (w :: ws)

inductive RespelledEntries : List (Value × Value) → List (Value × Value) → Prop
  | nil : RespelledEntries [] []
  | cons {k v w es fs} (h : Respelled v w) (hs : RespelledEntries es fs) :
      RespelledEntries ((k, v) :: es) ((k, w) :: fs)
  | spelled {key v w es fs} (hkey : IsVersionKey key) (hv : isWord v) (hw : isWord w) (h : Alike v w)
      (hs : RespelledEntries es fs) : RespelledEntries ((.text key, v) :: es) ((.text key, w) :: fs)

end

mutual

theorem Respelled.symm : ∀ {v w : Value}, Respelled v w → Respelled w v
  | _, _, .single h => .single h
  | _, _, .list h => .list h.symm
  | _, _, .map h => .map h.symm
  | _, _, .knot h => .knot h.symm

theorem RespelledItems.symm : ∀ {vs ws : List Value}, RespelledItems vs ws → RespelledItems ws vs
  | _, _, .nil => .nil
  | _, _, .cons h hs => .cons h.symm hs.symm
  | _, _, .pair hv hw hs => .pair hw hv hs.symm

theorem RespelledEntries.symm : ∀ {es fs : List (Value × Value)}, RespelledEntries es fs →
    RespelledEntries fs es
  | _, _, .nil => .nil
  | _, _, .cons h hs => .cons h.symm hs.symm
  | _, _, .spelled hkey hv hw h hs => .spelled hkey hw hv h.symm hs.symm

end

/-! ### Opened knots -/

variable {v w x y : Value} {vs ws : List Value} {es fs : List (Value × Value)} {key : String}

theorem isPair_replace {label : Nat} (h : isPair v) : isPair (Value.replace label x v) := by
  match v, h with
  | .pair a b, _ => rfl
  | .knot l (.pair a b), _ =>
    unfold Value.replace
    split <;> rfl

theorem replace_of_isWord {label : Nat} (h : isWord v) : Value.replace label x v = v := by
  match v, h with
  | .int _, _ | .text _, _ => rfl

theorem respelled_replace_of_isSingle {label : Nat} (hxy : Respelled x y) :
    ∀ {v : Value}, isSingle v → Respelled (Value.replace label x v) (Value.replace label y v)
  | .again l b => fun _ => by
    unfold Value.replace
    by_cases hl : l = label
    · rw [if_pos hl, if_pos hl]
      exact hxy
    · rw [if_neg hl, if_neg hl]
      exact .single rfl
  | .set _ | .null | .bool _ | .int _ | .float _ | .text _ | .bytes _ | .date _ | .timestamp _ =>
    fun h => .single h
  | .pair _ _ | .list _ | .map _ | .knot _ _ => nofun

mutual

theorem respelled_replace {label : Nat} (hxy : Respelled x y) :
    ∀ {v w : Value}, Respelled v w → Respelled (Value.replace label x v) (Value.replace label y w)
  | _, _, .single h => respelled_replace_of_isSingle hxy h
  | _, _, .list h => .list (respelledItems_replace hxy h)
  | _, _, .map h => .map (respelledEntries_replace hxy h)
  | .knot l _, _, .knot h => by
    unfold Value.replace
    by_cases hl : l = label
    · rw [if_pos hl, if_pos hl]
      exact .knot h
    · rw [if_neg hl, if_neg hl]
      exact .knot (respelled_replace hxy h)

theorem respelledItems_replace {label : Nat} (hxy : Respelled x y) :
    ∀ {vs ws : List Value}, RespelledItems vs ws →
      RespelledItems (Value.replaceIn label x vs) (Value.replaceIn label y ws)
  | _, _, .nil => .nil
  | _, _, .cons h hs => .cons (respelled_replace hxy h) (respelledItems_replace hxy hs)
  | _, _, .pair hv hw hs => .pair (isPair_replace hv) (isPair_replace hw) (respelledItems_replace hxy hs)

theorem respelledEntries_replace {label : Nat} (hxy : Respelled x y) :
    ∀ {es fs : List (Value × Value)}, RespelledEntries es fs →
      RespelledEntries (Value.replaceInEntries label x es) (Value.replaceInEntries label y fs)
  | _, _, .nil => .nil
  | _, _, .cons h hs => .cons (respelled_replace hxy h) (respelledEntries_replace hxy hs)
  | _, _, .spelled hkey hv hw h hs => by
    unfold Value.replaceInEntries
    rw [replace_of_isWord hv, replace_of_isWord hw]
    exact .spelled hkey hv hw h (respelledEntries_replace hxy hs)

end

theorem Respelled.opened (h : Respelled v w) : Respelled v.opened w.opened := by
  cases h with
  | knot h => exact respelled_replace (.knot h) h
  | single hsingle =>
    have hopened : v.opened = v := by
      unfold Value.opened
      split
      · cases hsingle
      · rfl
    rw [hopened]
    exact .single hsingle
  | list h => exact .list h
  | map h => exact .map h

/-! ### Fields -/

theorem Respelled.iff_of_isSingle {P : Value → Prop} (hP : ∀ {v}, P v → isSingle v)
    (h : Respelled v w) : P v ↔ P w := by
  have hnone {v : Value} (hv : isSingle v = false) : ¬P v := fun h => by
    rw [hP h] at hv
    cases hv
  cases h with
  | single => exact Iff.rfl
  | list | map | knot => exact ⟨fun h => absurd h (hnone rfl), fun h => absurd h (hnone rfl)⟩

theorem isSingle_of_textOf {reject : Value → Failure} {s : String}
    (h : Version.textOf reject v = .ok s) : isSingle v := by
  unfold Version.textOf at h
  split at h
  case h_5 => cases h
  all_goals rfl

theorem isSingle_of_versionText {text : Value} (h : versionText v = .ok text) (htext : isSingle text) :
    isSingle v := by
  unfold versionText at h
  split at h
  case h_1 => rfl
  case h_2 => exact Except.ok.inj h ▸ htext

theorem isSingle_of_versionIs {a : Version} (h : VersionIs v a) : isSingle v := by
  obtain ⟨text, htext, hread⟩ := h
  refine isSingle_of_versionText htext ?_
  unfold Version.ofValue at hread
  split at hread
  case h_1 => rfl
  case h_2 =>
    obtain ⟨s, hs, -⟩ := bind_eq_ok_iff.mp hread
    exact isSingle_of_textOf hs

theorem isSingle_of_rangeIs {r : VersionRange} (h : RangeIs v r) : isSingle v := by
  obtain ⟨text, htext, hread⟩ := h
  refine isSingle_of_versionText htext ?_
  unfold VersionRange.ofValue at hread
  split at hread
  case h_1 => rfl
  case h_2 =>
    obtain ⟨s, hs, -⟩ := bind_eq_ok_iff.mp hread
    exact isSingle_of_textOf hs

theorem Respelled.alike (h : Respelled v w) : Alike v w :=
  ⟨fun _ => h.iff_of_isSingle isSingle_of_versionIs, fun _ => h.iff_of_isSingle isSingle_of_rangeIs⟩

theorem Respelled.requireText_iff {what s : String} (h : Respelled v w) :
    requireText what v = .ok s ↔ requireText what w = .ok s := by
  refine h.iff_of_isSingle (P := fun v => requireText what v = .ok s) fun hv => ?_
  unfold requireText at hv
  split at hv
  case h_1 => rfl
  case h_2 => cases hv

/-! ### Entries -/

def FoundAlike (key : String) (v w : Value) : Prop :=
  Respelled v w ∨ IsVersionKey key ∧ Alike v w

theorem get?_cons_alike {k : Value}
    (hs : Option.Rel (FoundAlike key) (Value.get? key es) (Value.get? key fs))
    (h : k = .text key → FoundAlike key v w) :
    Option.Rel (FoundAlike key) (Value.get? key ((k, v) :: es)) (Value.get? key ((k, w) :: fs)) := by
  unfold Value.get?
  generalize Value.get? key es = a, Value.get? key fs = b at hs
  cases hs with
  | some h => exact .some h
  | none =>
    dsimp only
    split
    case h_1 s =>
      by_cases hkey : s = key
      · rw [if_pos hkey, if_pos hkey]
        exact .some (h (congrArg _ hkey))
      · rw [if_neg hkey, if_neg hkey]
        exact .none
    case h_2 => exact .none

theorem RespelledEntries.get? : ∀ {es fs : List (Value × Value)}, RespelledEntries es fs →
    Option.Rel (FoundAlike key) (Value.get? key es) (Value.get? key fs)
  | _, _, .nil => .none
  | _, _, .cons h hs => get?_cons_alike hs.get? fun _ => Or.inl h
  | _, _, .spelled hkey _ _ h hs =>
    get?_cons_alike hs.get? fun heq => Or.inr ⟨Value.text.inj heq ▸ hkey, h⟩

theorem RespelledEntries.get?_of_not (h : RespelledEntries es fs) (hkey : ¬IsVersionKey key) :
    Option.Rel Respelled (Value.get? key es) (Value.get? key fs) := by
  have hfound : Option.Rel (FoundAlike key) _ _ := h.get?
  generalize Value.get? key es = a, Value.get? key fs = b at hfound
  cases hfound with
  | none => exact .none
  | some h => exact .some (h.resolve_right fun h => hkey h.1)

theorem respelled_getD {a b : Option Value} (usual : Value) (h : Option.Rel Respelled a b)
    (husual : isSingle usual) : Respelled (a.getD usual) (b.getD usual) := by
  cases h with
  | none => exact .single husual
  | some h => exact h

theorem RespelledEntries.get (h : RespelledEntries es fs) (hkey : ¬IsVersionKey key) :
    Respelled (get key es) (get key fs) :=
  respelled_getD .null (h.get?_of_not hkey) rfl

theorem RespelledEntries.alike_get (h : RespelledEntries es fs) :
    Alike (Manifest.get key es) (Manifest.get key fs) := by
  have hfound : Option.Rel (FoundAlike key) _ _ := h.get?
  unfold Manifest.get
  generalize Value.get? key es = a, Value.get? key fs = b at hfound
  cases hfound with
  | none => exact .refl _
  | some h => exact h.elim Respelled.alike And.right

theorem RespelledEntries.flagIs {usual b : Bool} (h : RespelledEntries es fs) (hkey : ¬IsVersionKey key)
    (hflag : FlagIs key usual es b) : FlagIs key usual fs b := by
  have hfound := h.get?_of_not hkey
  unfold FlagIs at *
  generalize Value.get? key es = a, Value.get? key fs = b' at *
  cases hfound with
  | none => exact hflag
  | some h =>
    have hiff := h.iff_of_isSingle (P := fun v => v = .bool b) fun hv => by rw [hv]; rfl
    simpa [hiff] using hflag

/-! ### Parts -/

/-- Two spellings of what is enumerated: of a list its items, else the same. -/
def RespelledPart (v w : Value) : Prop :=
  v = w ∨ Respelled v w ∨ isPair v ∧ isPair w

theorem forall₂_part : ∀ {vs ws : List Value}, RespelledItems vs ws → List.Forall₂ RespelledPart vs ws
  | _, _, .nil => .nil
  | _, _, .cons h hs => .cons (Or.inr (Or.inl h)) (forall₂_part hs)
  | _, _, .pair hv hw hs => .cons (Or.inr (Or.inr ⟨hv, hw⟩)) (forall₂_part hs)

theorem RespelledEntries.keys_eq : ∀ {es fs : List (Value × Value)}, RespelledEntries es fs →
    es.map Prod.fst = fs.map Prod.fst
  | _, _, .nil => rfl
  | _, _, .cons _ hs => congrArg (List.cons _) hs.keys_eq
  | _, _, .spelled _ _ _ _ hs => congrArg (List.cons _) hs.keys_eq

theorem Respelled.isEmpty_eq (h : Respelled v w) : v.isEmpty = w.isEmpty := by
  cases h with
  | single | knot => rfl
  | list h => cases h <;> rfl
  | map h => cases h <;> rfl

theorem Respelled.elements? (h : Respelled v w) :
    Option.Rel (List.Forall₂ RespelledPart) v.elements? w.elements? := by
  have hsame (vs : List Value) : List.Forall₂ RespelledPart vs vs :=
    List.forall₂_same.mpr fun _ _ => Or.inl rfl
  have hopened := h.opened
  unfold Value.elements?
  generalize v.opened = a, w.opened = b at hopened
  cases hopened with
  | single =>
    cases a
    case text | bytes | pair | list | map | set => exact .some (hsame _)
    all_goals exact .none
  | list h => exact .some (forall₂_part h)
  | map h =>
    dsimp only
    rw [h.keys_eq]
    exact .some (hsame _)
  | knot => exact .none

theorem RespelledEntries.parts (h : RespelledEntries es fs) (hkey : ¬IsVersionKey key) :
    (∃ f, Manifest.parts key es = .error f ∧ Manifest.parts key fs = .error f) ∨
      ∃ vs ws, Manifest.parts key es = .ok vs ∧ Manifest.parts key fs = .ok ws ∧
        List.Forall₂ RespelledPart vs ws := by
  have hfound := h.get hkey
  unfold Manifest.parts
  dsimp only
  rw [← hfound.isEmpty_eq]
  by_cases hempty : (Manifest.get key es).isEmpty
  · rw [if_pos hempty, if_pos hempty]
    exact Or.inr ⟨[], [], rfl, rfl, .nil⟩
  · rw [if_neg hempty, if_neg hempty]
    have helements := hfound.elements?
    generalize (Manifest.get key es).elements? = a, (Manifest.get key fs).elements? = b at helements
    cases helements with
    | none => exact Or.inl ⟨_, rfl, rfl⟩
    | some h => exact Or.inr ⟨_, _, rfl, rfl, h⟩

theorem RespelledEntries.enumerates {α : Type} {P : Value → α → Prop} {as : List α}
    (hP : ∀ {v w a}, RespelledPart v w → P v a → P w a) (h : RespelledEntries es fs)
    (hkey : ¬IsVersionKey key) (hes : Enumerates key es vs) (has : List.Forall₂ P vs as) :
    ∃ ws, Enumerates key fs ws ∧ List.Forall₂ P ws as := by
  obtain ⟨f, hf, -⟩ | ⟨vs', ws, hvs, hws, hs⟩ := h.parts hkey
  · cases hes.symm.trans hf
  · obtain rfl : vs = vs' := Except.ok.inj (hes.symm.trans hvs)
    refine ⟨ws, hws, ?_⟩
    clear hes hvs hws
    induction hs generalizing as with
    | nil => exact has
    | cons h _ ih =>
      cases has with
      | cons ha has => exact .cons (hP h ha) (ih has)

/-! ### Units -/

theorem isPair_opened (h : isPair v) : isPair v.opened := by
  match v, h with
  | .pair a b, _ => rfl
  | .knot l (.pair a b), _ => exact isPair_replace rfl

theorem stated_part {α : Type} {states : List (Value × Value) → α → Prop} {a : α}
    (hstates : ∀ {es fs}, RespelledEntries es fs → states es a → states fs a)
    (h : RespelledPart v w) (hv : Stated states v a) : Stated states w a := by
  obtain rfl | h | ⟨hpair, -⟩ := h
  · exact hv
  · obtain ⟨entry, hentry, hstated⟩ := hv
    have hopened := h.opened
    rw [hentry] at hopened
    generalize hw : w.opened = b at hopened
    cases hopened with
    | single hsingle => cases hsingle
    | map hentries => exact ⟨_, hw, hstates hentries hstated⟩
  · obtain ⟨entry, hentry, -⟩ := hv
    have hopened := isPair_opened hpair
    rw [hentry] at hopened
    cases hopened

variable {c : Conventions} {owner : Option Source}

theorem RespelledEntries.requireText_namespaceOf {what name : String} (h : RespelledEntries es fs)
    (hname : requireText what (namespaceOf c es) = .ok name) :
    requireText what (namespaceOf c fs) = .ok name := by
  have hfound := h.get?_of_not (by decide : ¬IsVersionKey "namespace")
  unfold namespaceOf at *
  generalize Value.get? "namespace" es = a, Value.get? "namespace" fs = b at *
  cases hfound with
  | none => exact hname
  | some h => exact h.requireText_iff.mp hname

theorem RespelledEntries.requireText_get {what name : String} (h : RespelledEntries es fs)
    (hkey : ¬IsVersionKey key) (hname : requireText what (Manifest.get key es) = .ok name) :
    requireText what (Manifest.get key fs) = .ok name :=
  (h.get hkey).requireText_iff.mp hname

theorem RespelledEntries.statesRequirement {r : Requirement} (h : RespelledEntries es fs)
    (hr : StatesRequirement c es r) : StatesRequirement c fs r where
  namespaceName := h.requireText_namespaceOf hr.namespaceName
  name := h.requireText_get (by decide) hr.name
  range := (h.alike_get.range r.range).mp hr.range
  optional := h.flagIs (by decide) hr.optional
  greedy := h.flagIs (by decide) hr.greedy

theorem requirementStated_part {r : Requirement} (h : RespelledPart v w) (hv : RequirementStated c v r) :
    RequirementStated c w r := by
  obtain hv | ⟨s, hs, hv⟩ := hv
  · exact Or.inl (stated_part RespelledEntries.statesRequirement h hv)
  · obtain rfl | h | ⟨hpair, -⟩ := h
    · exact Or.inr ⟨s, hs, hv⟩
    · have hopened : v.opened = .text s ↔ w.opened = .text s :=
        h.opened.iff_of_isSingle (P := fun v => v = .text s) fun hv => by rw [hv]; rfl
      have hentry : RespelledEntries [(.text "name", v)] [(.text "name", w)] := .cons h .nil
      exact Or.inr ⟨s, hopened.mp hs, hentry.statesRequirement hv⟩
    · have hopened := isPair_opened hpair
      rw [hs] at hopened
      cases hopened

theorem RespelledEntries.statesCapability {k : Capability} (h : RespelledEntries es fs)
    (hk : StatesCapability c es k) : StatesCapability c fs k where
  namespaceName := h.requireText_namespaceOf hk.namespaceName
  name := h.requireText_get (by decide) hk.name
  version := (h.alike_get.version k.version).mp hk.version

theorem RespelledEntries.statesArtifact {a : Artifact} (h : RespelledEntries es fs)
    (ha : StatesArtifact es a) : StatesArtifact fs a where
  classifier := by
    have hfound := respelled_getD (.text (Classifier.text .bundle))
      (h.get?_of_not (by decide : ¬IsVersionKey "classifier")) rfl
    exact (hfound.iff_of_isSingle (P := fun v => v = .text a.classifier.text) fun hv => by
      rw [hv]; rfl).mp ha.classifier
  id := h.requireText_get (by decide) ha.id
  version := (h.alike_get.version a.version).mp ha.version
  path := h.requireText_get (by decide) ha.path
  isFragment := by
    obtain ⟨b, hb, hfragment⟩ := ha.isFragment
    exact ⟨b, h.flagIs (by decide) hb, hfragment⟩
  isSingleton := by
    obtain ⟨b, hb, hsingleton⟩ := ha.isSingleton
    exact ⟨b, h.flagIs (by decide) hb, hsingleton⟩

theorem RespelledEntries.exists_get? {P : Value → Prop} {Q : Value → Prop} (h : RespelledEntries es fs)
    (hP : ∀ {v w}, FoundAlike key v w → P v → Q w) (hes : ∃ v, Value.get? key es = some v ∧ P v) :
    ∃ w, Value.get? key fs = some w ∧ Q w := by
  obtain ⟨v, hv, hvP⟩ := hes
  have hfound : Option.Rel (FoundAlike key) _ _ := h.get?
  rw [hv] at hfound
  generalize Value.get? key fs = b at hfound
  cases hfound with
  | some h => exact ⟨_, rfl, hP h hvP⟩

theorem RespelledEntries.statesUnit {u : Installable} (h : RespelledEntries es fs)
    (hu : StatesUnit Enumerates c owner es u) : StatesUnit Enumerates c owner fs u where
  id := by
    refine h.exists_get? (fun hfound hid => ?_) hu.id
    exact (hfound.resolve_right fun h => absurd h.1 (by decide)).requireText_iff.mp hid
  version := by
    refine h.exists_get? (fun hfound hversion => ?_) hu.version
    exact ((hfound.elim Respelled.alike And.right).version u.version).mp hversion
  requires := by
    obtain ⟨vs, hvs, hrequires⟩ := hu.requires
    exact h.enumerates requirementStated_part (by decide) hvs hrequires
  provides := by
    obtain ⟨vs, declared, namespaceName, hvs, hdeclared, hnamespace, hidentity⟩ := hu.provides
    obtain ⟨ws, hws, hdeclared⟩ :=
      h.enumerates (P := Stated (StatesCapability c)) (stated_part RespelledEntries.statesCapability)
        (by decide) hvs hdeclared
    exact ⟨ws, declared, namespaceName, hws, hdeclared, hnamespace, hidentity⟩
  artifacts := by
    obtain ⟨vs, hvs, hartifacts⟩ := hu.artifacts
    exact h.enumerates (stated_part RespelledEntries.statesArtifact) (by decide) hvs hartifacts
  owner := hu.owner

theorem RespelledEntries.units_eq_ok {d d' : Document} {label : String} {us : List Installable}
    (h : RespelledEntries d d') (hus : units c label owner d = .ok us) :
    units c label owner d' = .ok us := by
  rw [units_eq_ok_iff] at *
  obtain ⟨vs, hvs, hus⟩ := hus
  exact h.enumerates (stated_part RespelledEntries.statesUnit) (by decide) hvs hus

/-- Documents that differ in the spelling of versions have the same units. -/
theorem RespelledEntries.units_eq_ok_iff {d d' : Document} {label : String} {us : List Installable}
    (h : RespelledEntries d d') : units c label owner d = .ok us ↔ units c label owner d' = .ok us :=
  ⟨h.units_eq_ok, h.symm.units_eq_ok⟩

end Provision.Manifest
