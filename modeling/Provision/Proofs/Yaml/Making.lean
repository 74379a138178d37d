import Provision.Proofs.Manifest.Respelling
import Provision.Proofs.Value.Key
import Provision.Proofs.Yaml.Merging
import Provision.Proofs.Yaml.Pairing
import Provision.Yaml.Object

namespace Provision.Yaml

open Provision.Manifest (Alike IsVersionKey isSingle isWord)

/-! ### Single values -/

theorem isSingle_of_bind {α : Type} {x : Except Fault α} {f : α → Value} {v : Value}
    (hf : ∀ a, isSingle (f a)) (h : (x >>= fun a => pure (f a)) = .ok v) : isSingle v := by
  cases x with
  | error => cases h
  | ok a => exact Except.ok.inj h ▸ hf a

theorem isSingle_of_read {tag : Tag} {text : String} {v : Value} (h : Scalar.read tag text = .ok v) :
    isSingle v := by
  cases tag with
  | null | text => exact Except.ok.inj h ▸ rfl
  | bool =>
    simp only [Scalar.read, Scalar.readBool] at h
    split at h
    · exact Except.ok.inj h ▸ rfl
    · split at h
      · exact Except.ok.inj h ▸ rfl
      · cases h
  | int =>
    simp only [Scalar.read, Scalar.readInt] at h
    split at h
    · cases h
    all_goals exact isSingle_of_bind (fun _ => rfl) h
  | float =>
    simp only [Scalar.read, Scalar.readFloat] at h
    split at h
    · cases h
    all_goals exact isSingle_of_bind (fun _ => rfl) h
  | binary =>
    simp only [Scalar.read, Scalar.readBinary] at h
    split at h
    · split at h
      · exact Except.ok.inj h ▸ rfl
      · cases h
    · cases h
  | timestamp =>
    simp only [Scalar.read, Scalar.readTimestamp] at h
    split at h
    · cases h
    · split at h
      · exact Except.ok.inj h ▸ rfl
      · split at h
        · exact Except.ok.inj h ▸ rfl
        · cases h
      · cases h
  | merge | value | sequence | mapping | set | orderedMap | pairs | unknown => cases h

namespace Objects

variable {s s' r r' : Objects} {w w' : NodePair} {i j k v place : Nat} {n n' : Node} {o o' : Object}
  {entries : List (Nat × Nat)} {entry : Nat × Nat}

/-! ### Objects of single nodes -/

/-- What an object may be, given its node. A scalar that stands for the value of its mapping has none. -/
structure Fits (n : Node) (o : Object) : Prop where
  single {v : Value} : o = .single v → isSingle v
  text {t : String} : n = .scalar .text t → o = .single (.text t)
  ne_value (t : String) : n ≠ .scalar .value t

theorem Fits.becomes (h : Fits n o) (hn : n.Becomes n') : Fits n' o := by
  cases hn with
  | same => exact h
  | collection _ h' =>
    refine ⟨h.single, ?_, ?_⟩
    · rintro t rfl
      cases h'
    · rintro t rfl
      cases h'
  | text t => exact absurd rfl (h.ne_value t)

theorem Fits.filled (h : Fits n o) (ho : o.isSingle = false) (ho' : o'.isSingle = false) :
    Fits n o' where
  single := by
    rintro v rfl
    cases ho'
  text hn := by
    rw [h.text hn] at ho
    cases ho
  ne_value := h.ne_value

theorem isSingle_of_empty? {tag : Tag} (h : Object.empty? tag = some o) : o.isSingle = false := by
  cases tag with
  | sequence | mapping | set | orderedMap | pairs => exact Option.some.inj h ▸ rfl
  | null | bool | int | float | text | binary | timestamp | merge | value | unknown => cases h

theorem fits_empty (h : Object.empty? n.tag = some o) : Fits n o where
  single := by
    rintro v rfl
    cases isSingle_of_empty? h
  text := by
    rintro t rfl
    cases h
  ne_value := by
    rintro t rfl
    cases h

theorem scalarText_eq (hw : Twins w) : ∀ (depth : Nat) {place : Nat},
    w.plain.node place = w.quoted.node place →
      scalarText w.quoted depth place = scalarText w.plain depth place
  | 0, _, _ => rfl
  | depth + 1, place, h => by
    have hparts := hw.parts place
    unfold scalarText
    rw [← h]
    split
    case h_1 => rfl
    case h_3 => rfl
    case h_2 tag entries hnode =>
      rw [hnode] at hparts
      have hfind {p q : Nat × Nat → Bool} (hp : ∀ e, p e = decide (w.quoted.tagAt e.1 = .value))
          (hq : ∀ e, q e = decide (w.plain.tagAt e.1 = .value)) : entries.find? p = entries.find? q := by
        rw [← List.head?_filter, ← List.head?_filter]
        refine congrArg List.head? (List.filter_congr fun e he => ?_)
        rw [hp, hq, (hparts e he).key.tagAt_eq]
      split
      case h_1 _ k v hquoted =>
        rw [hfind (fun _ => rfl) fun _ => rfl] at hquoted
        have htag : w.plain.tagAt k = .value := by simpa using List.find?_some hquoted
        have hv : Settled w v :=
          (hparts _ (List.mem_of_find?_eq_some hquoted)).settled (by rw [htag]; decide)
        rw [hquoted]
        exact scalarText_eq hw depth hv.eq
      case h_2 _ hquoted =>
        rw [hfind (fun _ => rfl) fun _ => rfl] at hquoted
        rw [hquoted]

theorem singleOf_eq (hw : Twins w) (h : w.plain.node place = w.quoted.node place) (tag : Tag) :
    singleOf w.quoted place tag = singleOf w.plain place tag := by
  unfold singleOf
  rw [scalarText_eq hw _ h, hw.size, ← h]

theorem of_singleOf_eq_ok {nodes : Nodes} {tag : Tag} (h : singleOf nodes place tag = .ok o) :
    tag.isScalar ∧ ∃ text, scalarText nodes (nodes.size + 1) place = .ok text ∧
      (tag = .float ∧ o = .undefined ∨ ∃ v, Scalar.read tag text = .ok v ∧ o = .single v) := by
  unfold singleOf at h
  cases hscalar : tag.isScalar with
  | false =>
    rw [hscalar] at h
    cases h
  | true =>
    rw [hscalar] at h
    refine ⟨rfl, ?_⟩
    cases htext : scalarText nodes (nodes.size + 1) place with
    | error f =>
      rw [htext] at h
      cases h
    | ok text =>
      rw [htext] at h
      have hread : (if tag = .float && Scalar.isUndefined text then (return .undefined) else do
          return .single (← Scalar.read tag text) : Except Fault Object) = .ok o := by
        by_cases htag : tag = .timestamp
        · subst htag
          cases hnode : requireScalar (nodes.node place) with
          | error f =>
            simp only [hnode] at h
            cases h
          | ok =>
            simp only [hnode] at h
            exact h
        · simp only [htag] at h
          exact h
      refine ⟨text, rfl, ?_⟩
      split at hread
      case isTrue hfloat =>
        rw [Bool.and_eq_true, decide_eq_true_iff] at hfloat
        exact Or.inl ⟨hfloat.1, (Except.ok.inj hread).symm⟩
      case isFalse =>
        cases hv : Scalar.read tag text with
        | error f =>
          rw [hv] at hread
          cases hread
        | ok v =>
          rw [hv] at hread
          exact Or.inr ⟨v, rfl, (Except.ok.inj hread).symm⟩

theorem fits_singleOf {nodes : Nodes} (h : singleOf nodes place (nodes.tagAt place) = .ok o) :
    Fits (nodes.node place) o := by
  obtain ⟨hscalar, text, htext, hsingle⟩ := of_singleOf_eq_ok h
  unfold Nodes.tagAt at hscalar hsingle
  refine ⟨?_, ?_, ?_⟩
  · rintro v rfl
    obtain ⟨-, ⟨⟩⟩ | ⟨v', hv, heq⟩ := hsingle
    exact Object.single.inj heq ▸ isSingle_of_read hv
  · intro t hnode
    unfold scalarText at htext
    rw [hnode] at htext hsingle
    obtain rfl : t = text := Except.ok.inj htext
    obtain ⟨⟨⟩, -⟩ | ⟨v, hv, rfl⟩ := hsingle
    exact congrArg Object.single (Except.ok.inj hv).symm
  · intro t hnode
    rw [hnode] at hscalar
    cases hscalar

/-! ### Objects side by side -/

def sides (s s' : Objects) : NodePair := ⟨s.nodes, s'.nodes⟩

def ObjectsAlike (w : NodePair) (j : Nat) (o o' : Option Object) : Prop :=
  o' = o ∨ ¬Settled w j ∧ ∃ v v', o = some (.single v) ∧ o' = some (.single v') ∧
    isWord v ∧ isWord v' ∧ Alike v v'

structure MadeEntry (w : NodePair) (s : Objects) (entry : Nat × Nat) : Prop where
  key : Settled w entry.1
  value : Settled w entry.2 ∨
    ∃ key, IsVersionKey key ∧ s.object? entry.1 = some (.single (.text key))

def PartsMade (w : NodePair) (s : Objects) : Object → Prop
  | .single _ | .undefined | .pairs _ => True
  | .list items => ∀ i ∈ items, Settled w i
  | .map entries => ∀ e ∈ entries, MadeEntry w s e
  | .set keys => ∀ k ∈ keys, Settled w k

/-- Two documents whose objects have come equally far. -/
structure Alongside (s s' : Objects) : Prop where
  twins : Twins (sides s s')
  size : s.made.size = s.nodes.size
  size' : s'.made.size = s.made.size
  waiting : s'.waiting = s.waiting
  met : ∀ j ∈ s.waiting, Settled (sides s s') j
  made (j : Nat) : ObjectsAlike (sides s s') j (s.object? j) (s'.object? j)
  fits {j : Nat} {o : Object} : s.object? j = some o → Fits (s.nodes.node j) o
  parts {j : Nat} {o : Object} : s.object? j = some o → PartsMade (sides s s') s o

/-- What is known of the objects later on. -/
structure Advances (s s' r r' : Objects) : Prop where
  nodes : Changes (sides s s') (sides r r')
  single {j : Nat} {v : Value} : s.object? j = some (.single v) → r.object? j = some (.single v)
  container {j : Nat} {o : Object} : s.object? j = some o → o.isSingle = false →
    ∃ o', r.object? j = some o' ∧ o'.isSingle = false

theorem partsMade_empty {tag : Tag} (h : Object.empty? tag = some o) : PartsMade w s o := by
  cases tag with
  | sequence | mapping | set | orderedMap | pairs =>
    obtain rfl := Option.some.inj h
    first | exact trivial | exact nofun
  | null | bool | int | float | text | binary | timestamp | merge | value | unknown => cases h

theorem Advances.refl (s s' : Objects) : Advances s s' s s' :=
  ⟨.refl _, id, fun h ho => ⟨_, h, ho⟩⟩

theorem Advances.trans {t t' : Objects} (h : Advances s s' r r') (h' : Advances r r' t t') :
    Advances s s' t t' where
  nodes := h.nodes.trans h'.nodes
  single hj := h'.single (h.single hj)
  container hj ho := by
    obtain ⟨o', hj', ho'⟩ := h.container hj ho
    exact h'.container hj' ho'

theorem Advances.settled (h : Advances s s' r r') (hj : Settled (sides s s') j) :
    Settled (sides r r') j :=
  h.nodes.settled hj

def pairing : Pairing Objects where
  Paired := Alongside
  Grows := Advances
  refl := .refl
  trans := .trans

abbrev Lockstep {α : Type} (p : Maker α) (P : Objects → Objects → α → Prop) (s s' : Objects) : Prop :=
  Yaml.Lockstep pairing p P s s'

theorem MadeEntry.advances (he : MadeEntry (sides s s') s entry) (h : Advances s s' r r') :
    MadeEntry (sides r r') r entry :=
  ⟨h.settled he.key, he.value.imp h.settled fun ⟨key, hkey, htext⟩ => ⟨key, hkey, h.single htext⟩⟩

theorem PartsMade.advances (ho : PartsMade (sides s s') s o) (h : Advances s s' r r') :
    PartsMade (sides r r') r o := by
  cases o with
  | single | undefined | pairs => trivial
  | list => exact fun i hi => h.settled (ho i hi)
  | map => exact fun e he => (ho e he).advances h
  | set => exact fun k hk => h.settled (ho k hk)

theorem Alongside.object?_eq (h : Alongside s s') (hj : Settled (sides s s') j) :
    s'.object? j = s.object? j :=
  (h.made j).resolve_right fun hspelled => hspelled.1 hj

theorem lt_of_object? (h : s.object? j = some o) : j < s.made.size := by
  unfold object? at h
  by_contra hle
  rw [Array.getElem?_eq_none (Nat.le_of_not_lt hle)] at h
  cases h

theorem Alongside.lt (h : Alongside s s') (hj : s.object? j = some o) : j < s.nodes.size :=
  h.size ▸ lt_of_object? hj

/-! ### New objects -/

def stored (s : Objects) (place : Nat) (o : Object) : Objects :=
  { s with made := s.made.setIfInBounds place (some o) }

theorem object?_stored (s : Objects) (place : Nat) (o : Object) (j : Nat) :
    (s.stored place o).object? j = if j = place ∧ place < s.made.size then some o else s.object? j := by
  unfold object? stored
  dsimp only
  rw [Array.getElem?_setIfInBounds]
  by_cases hj : place = j
  · subst hj
    by_cases hlt : place < s.made.size
    · simp [hlt]
    · simp [hlt]
  · rw [if_neg hj, if_neg fun h => hj h.1.symm]

theorem advances_stored (hfree : ∀ v, s.object? place ≠ some (.single v))
    (hfilled : ∀ {p}, s.object? place = some p → p.isSingle = false → o.isSingle = false) :
    Advances s s' (s.stored place o) (s'.stored place o') where
  nodes := .refl _
  single {j v} hj := by
    rw [object?_stored, if_neg]
    · exact hj
    · rintro ⟨rfl, -⟩
      exact hfree v hj
  container {j p} hj hp := by
    rw [object?_stored]
    split
    case isTrue hplace => exact ⟨o, rfl, hfilled (hplace.1 ▸ hj) hp⟩
    case isFalse => exact ⟨p, hj, hp⟩

theorem Alongside.stored (h : Alongside s s')
    (hadvances : Advances s s' (s.stored place o) (s'.stored place o'))
    (halike : ObjectsAlike (sides s s') place (some o) (some o')) (hfits : Fits (s.nodes.node place) o)
    (hparts : PartsMade (sides s s') s o) : Alongside (s.stored place o) (s'.stored place o') where
  twins := h.twins
  size := by simpa [Objects.stored] using h.size
  size' := by simpa [Objects.stored] using h.size'
  waiting := h.waiting
  met := h.met
  made j := by
    rw [object?_stored, object?_stored, h.size']
    split
    case isTrue hj => exact hj.1 ▸ halike
    case isFalse => exact h.made j
  fits {j p} hj := by
    rw [object?_stored] at hj
    split at hj
    case isTrue hplace => exact Option.some.inj hj ▸ hplace.1 ▸ hfits
    case isFalse => exact h.fits hj
  parts {j p} hj := by
    rw [object?_stored] at hj
    split at hj
    case isTrue => exact PartsMade.advances (Option.some.inj hj ▸ hparts) hadvances
    case isFalse => exact (h.parts hj).advances hadvances

/-! ### Visits -/

theorem lockstep_put (h : Alongside s s')
    (hadvances : Advances s s' (s.stored place o) (s'.stored place o))
    (hfits : Fits (s.nodes.node place) o) (hparts : PartsMade (sides s s') s o) :
    Lockstep (put place o) (fun r _ _ => r = s.stored place o) s s' :=
  Or.inr ⟨(), _, _, rfl, rfl, h.stored hadvances (Or.inl rfl) hfits hparts, hadvances, rfl⟩

def queued (s : Objects) (place : Nat) : Objects :=
  { s with waiting := s.waiting.push place }

theorem advances_queued : Advances s s' (s.queued place) (s'.queued place) :=
  ⟨.refl _, id, fun h ho => ⟨_, h, ho⟩⟩

theorem Alongside.queued (h : Alongside s s') (hplace : Settled (sides s s') place) :
    Alongside (s.queued place) (s'.queued place) where
  twins := h.twins
  size := h.size
  size' := h.size'
  waiting := congrArg (Array.push · place) h.waiting
  met j hj := by
    obtain hj | rfl := Array.mem_push.mp hj
    · exact h.met j hj
    · exact hplace
  made := h.made
  fits := h.fits
  parts hj := (h.parts hj).advances advances_queued

def IsMade (place : Nat) (r : Objects) : Prop :=
  place < r.made.size → (r.object? place).isSome

theorem isMade_stored (s : Objects) (place : Nat) (o : Object) : IsMade place (s.stored place o) := by
  intro hlt
  have hlt : place < s.made.size := by simpa [stored] using hlt
  rw [object?_stored, if_pos ⟨rfl, hlt⟩]
  rfl

theorem Alongside.stored_new (o o' : Object) (h : Alongside s s') (hnone : s.object? place = none)
    (halike : ObjectsAlike (sides s s') place (some o) (some o')) (hfits : Fits (s.nodes.node place) o)
    (hparts : PartsMade (sides s s') s o) :
    Alongside (s.stored place o) (s'.stored place o') ∧
      Advances s s' (s.stored place o) (s'.stored place o') := by
  have hadvances : Advances s s' (s.stored place o) (s'.stored place o') := by
    refine advances_stored ?_ ?_
    · intro v hv
      rw [hnone] at hv
      cases hv
    · intro p hp
      rw [hnone] at hp
      cases hp
  exact ⟨h.stored hadvances halike hfits hparts, hadvances⟩

theorem Alongside.isNone_eq (h : Alongside s s') (place : Nat) :
    (s'.object? place).isNone = (s.object? place).isNone := by
  obtain heq | ⟨-, v, v', hv, hv', -⟩ := h.made place
  · rw [heq]
  · rw [hv, hv']
    rfl

theorem lockstep_visit_same (h : Alongside s s')
    (hnode : (sides s s').plain.node place = (sides s s').quoted.node place) :
    Lockstep (visit place) (fun r _ _ => IsMade place r) s s' := by
  have htag : s'.nodes.tagAt place = s.nodes.tagAt place := congrArg Node.tag hnode.symm
  have hsingle : singleOf s'.nodes place = singleOf s.nodes place := funext (singleOf_eq h.twins hnode)
  refine lockstep_get (by simp only [h.isNone_eq, htag, hsingle]) ?_
  split
  case isFalse hsome =>
    refine lockstep_pure h fun _ => ?_
    simpa [Option.isSome_iff_ne_none] using hsome
  case isTrue hnone =>
    rw [Option.isNone_iff_eq_none] at hnone
    dsimp only
    split
    case h_1 o ho =>
      have hlt : place < s.nodes.size := lt_size_of_ne fun habsent => by
        rw [Nodes.tagAt, habsent] at ho
        cases ho
      have hplace : Settled (sides s s') place := ⟨hlt, hnode⟩
      obtain ⟨hstored, hadvances⟩ := h.stored_new o o hnone (Or.inl rfl) (fits_empty ho) (partsMade_empty ho)
      exact Or.inr ⟨(), _, _, rfl, rfl, hstored.queued hplace, hadvances.trans advances_queued,
        isMade_stored s place o⟩
    case h_2 =>
      cases ho : singleOf s.nodes place (s.nodes.tagAt place) with
      | error f => exact Or.inl ⟨f, rfl, rfl⟩
      | ok o =>
        have hparts : PartsMade (sides s s') s o := by
          obtain ⟨-, -, -, ⟨-, rfl⟩ | ⟨v, -, rfl⟩⟩ := of_singleOf_eq_ok ho <;> trivial
        obtain ⟨hstored, hadvances⟩ := h.stored_new o o hnone (Or.inl rfl) (fits_singleOf ho) hparts
        exact Or.inr ⟨(), _, _, rfl, rfl, hstored, hadvances, isMade_stored s place o⟩

theorem run_visit_of_some (h : (s.object? place).isNone = false) :
    (visit place).run s = .ok ((), s) := by
  simp only [visit, StateT.run_bind, StateT.run_get, pure_bind, h]
  rfl

theorem singleOf_scalar {nodes : Nodes} {tag : Tag} {text : String} {v : Value}
    (hnode : nodes.node place = .scalar tag text) (htag : tag = .int ∨ tag = .text)
    (hread : Scalar.read tag text = .ok v) : singleOf nodes place tag = .ok (.single v) := by
  have htext : scalarText nodes (nodes.size + 1) place = pure text := by
    rw [scalarText, hnode]
  rw [singleOf, htext, pure_bind, hread]
  obtain rfl | rfl := htag <;> rfl

theorem run_visit_scalar {tag : Tag} {text : String} {v : Value} (h : (s.object? place).isNone)
    (hnode : s.nodes.node place = .scalar tag text) (htag : tag = .int ∨ tag = .text)
    (hread : Scalar.read tag text = .ok v) :
    (visit place).run s = .ok ((), s.stored place (.single v)) := by
  have hsingle := singleOf_scalar hnode htag hread
  have hnodeTag : s.nodes.tagAt place = tag := congrArg Node.tag hnode
  have hempty : Object.empty? tag = none := by obtain rfl | rfl := htag <;> rfl
  simp only [visit, StateT.run_bind, StateT.run_get, pure_bind, h, hnodeTag, hempty, hsingle]
  rfl

theorem lockstep_visit_integer {t : String} {n : Int} (h : Alongside s s')
    (hplain : s.nodes.node place = .scalar .int t) (hquoted : s'.nodes.node place = .scalar .text t)
    (hread : Scalar.readInt t = .ok (.int n)) (halike : Alike (.int n) (.text t)) :
    Lockstep (visit place) (fun r _ _ => IsMade place r) s s' := by
  have hsettled : ¬Settled (sides s s') place := fun hsettled => by
    cases hplain.symm.trans (hsettled.eq.trans hquoted)
  cases hnone : s.object? place with
  | some o =>
    have hsame : (s'.object? place).isNone = false := by rw [h.isNone_eq, hnone]; rfl
    exact Or.inr ⟨(), s, s', run_visit_of_some (by rw [hnone]; rfl), run_visit_of_some hsame, h, .refl s s',
      fun _ => by rw [hnone]; rfl⟩
  | none =>
    have hnone' : (s'.object? place).isNone := by rw [h.isNone_eq, hnone]; rfl
    have hfits : Fits (s.nodes.node place) (.single (.int n)) := by
      rw [hplain]
      exact ⟨fun heq => Object.single.inj heq ▸ rfl, nofun, nofun⟩
    obtain ⟨hstored, hadvances⟩ := h.stored_new (.single (.int n)) (.single (.text t)) hnone
      (Or.inr ⟨hsettled, _, _, rfl, rfl, rfl, rfl, halike⟩) hfits trivial
    exact Or.inr ⟨(), _, _, run_visit_scalar (by rw [hnone]; rfl) hplain (Or.inl rfl) hread,
      run_visit_scalar hnone' hquoted (Or.inr rfl) rfl, hstored, hadvances, isMade_stored s place _⟩

theorem lockstep_visit (h : Alongside s s') (place : Nat) :
    Lockstep (visit place) (fun r _ _ => IsMade place r) s s' := by
  have hnode := h.twins.node place
  generalize hplain : (sides s s').plain.node place = n,
    hquoted : (sides s s').quoted.node place = n' at hnode
  cases hnode with
  | same => exact lockstep_visit_same h (hplain.trans hquoted.symm)
  | integer hread halike => exact lockstep_visit_integer h hplain hquoted hread halike

end Objects

end Provision.Yaml
