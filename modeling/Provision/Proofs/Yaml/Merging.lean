import Provision.Proofs.Yaml.Twins
import Provision.Yaml.Merge

namespace Provision.Yaml

variable {α β : Type} {w : NodePair} {place k v : Nat} {entries own merged rest : List (Nat × Nat)}

def Agree (w : NodePair) (nodesOf : α → Nodes) (P : α → α → Prop) (x y : Except Fault α) : Prop :=
  (∃ f, x = .error f ∧ y = .error f) ∨
    ∃ a b, x = .ok a ∧ y = .ok b ∧ Twins ⟨nodesOf a, nodesOf b⟩ ∧ Changes w ⟨nodesOf a, nodesOf b⟩ ∧
      P a b

theorem agree_error {nodesOf : α → Nodes} {P : α → α → Prop} (f : Fault) :
    Agree w nodesOf P (.error f) (.error f) :=
  Or.inl ⟨f, rfl, rfl⟩

theorem agree_bind {nodesOf : α → Nodes} {nodesOf' : β → Nodes} {P : α → α → Prop} {Q : β → β → Prop}
    {x y : Except Fault α} {g g' : α → Except Fault β} (hx : Agree w nodesOf P x y)
    (hg : ∀ a b, Twins ⟨nodesOf a, nodesOf b⟩ → Changes w ⟨nodesOf a, nodesOf b⟩ → P a b →
      Agree ⟨nodesOf a, nodesOf b⟩ nodesOf' Q (g a) (g' b)) :
    Agree w nodesOf' Q (x >>= g) (y >>= g') := by
  obtain ⟨f, rfl, rfl⟩ | ⟨a, b, rfl, rfl, hw, hgrows, hP⟩ := hx
  · exact agree_error f
  · obtain ⟨f, hx, hy⟩ | ⟨c, d, hx, hy, hw', hgrows', hQ⟩ := hg a b hw hgrows hP
    · exact Or.inl ⟨f, hx, hy⟩
    · exact Or.inr ⟨c, d, hx, hy, hw', hgrows.trans hgrows', hQ⟩

theorem agree_changes {w' : NodePair} {nodesOf : α → Nodes} {P : α → α → Prop} {x y : Except Fault α}
    (hgrows : Changes w w') (h : Agree w' nodesOf P x y) : Agree w nodesOf P x y :=
  h.imp_right fun ⟨a, b, hx, hy, hab, hgrows', hP⟩ => ⟨a, b, hx, hy, hab, hgrows.trans hgrows', hP⟩

/-! ### Entries of nodes -/

theorem Settled.tagAt_eq {j : Nat} (h : Settled w j) : w.quoted.tagAt j = w.plain.tagAt j :=
  congrArg Node.tag h.eq.symm

theorem Settled.entriesAt_eq (h : Settled w place) :
    w.quoted.entriesAt place = w.plain.entriesAt place := by
  unfold Nodes.entriesAt
  rw [h.eq]

theorem Twins.entriesAt (hw : Twins w) (place : Nat) :
    ∀ e ∈ w.plain.entriesAt place, SettledEntry w e := by
  have hparts := hw.parts place
  unfold Nodes.entriesAt
  cases hnode : w.plain.node place with
  | mapping tag entries =>
    rw [hnode] at hparts
    exact hparts
  | scalar | sequence => nofun

theorem isOpen_eq {e : Nat × Nat} (he : SettledEntry w e) :
    Merge.isOpen w.quoted e = Merge.isOpen w.plain e := by
  unfold Merge.isOpen
  rw [he.key.tagAt_eq]

theorem any_isOpen_eq (h : ∀ e ∈ entries, SettledEntry w e) :
    entries.any (Merge.isOpen w.quoted) = entries.any (Merge.isOpen w.plain) := by
  rw [Bool.eq_iff_iff, List.any_eq_true, List.any_eq_true]
  exact exists_congr fun e => and_congr_right fun he => by rw [isOpen_eq (h e he)]

theorem size_eq (hw : Twins w) : Merge.size w.quoted = Merge.size w.plain := by
  unfold Merge.size
  refine congrArg (List.foldr (· + ·) 0) ?_
  refine List.ext_getElem (by simp [hw.size]) fun j hj hj' => ?_
  simp only [List.length_map, Array.length_toList] at hj hj'
  have hnode := hw.node j
  have hplain : w.plain.node j = w.plain[j] := by simp [Nodes.node, hj']
  have hquoted : w.quoted.node j = w.quoted[j] := by simp [Nodes.node, hj]
  rw [hplain, hquoted] at hnode
  simp only [List.getElem_map, Array.getElem_toList]
  generalize w.plain[j] = n, w.quoted[j] = n' at hnode
  cases hnode with
  | same => rfl
  | integer => rfl

/-! ### Changes -/

theorem agree_setEntries (hw : Twins w) (hplace : Settled w place)
    (hcollection : (w.plain.node place).isCollection) (hentries : ∀ e ∈ entries, SettledEntry w e) :
    Twins ⟨Merge.setEntries place entries w.plain, Merge.setEntries place entries w.quoted⟩ ∧
      Changes w ⟨Merge.setEntries place entries w.plain, Merge.setEntries place entries w.quoted⟩ := by
  have hbecomes (tag : Tag) : (w.plain.node place).Becomes (.mapping tag entries) :=
    .collection hcollection rfl
  unfold Merge.setEntries
  rw [hplace.tagAt_eq]
  exact ⟨hw.set hplace (hbecomes _) hentries, hw.changes_set hplace (hbecomes _)⟩

theorem agree_retagAt (hw : Twins w) (hk : Settled w k) (htag : w.plain.tagAt k = .value) :
    Twins ⟨Merge.retagAt k w.plain, Merge.retagAt k w.quoted⟩ ∧
      Changes w ⟨Merge.retagAt k w.plain, Merge.retagAt k w.quoted⟩ := by
  have hbecomes : (w.plain.node k).Becomes (w.plain.node k).asText := by
    unfold Nodes.tagAt at htag
    cases hnode : w.plain.node k with
    | scalar tag s =>
      rw [hnode] at htag
      obtain rfl : tag = .value := htag
      exact .text s
    | sequence | mapping => exact .collection rfl rfl
  have hparts : PartsSettled w (w.plain.node k).asText := by
    have hparts := hw.parts k
    revert hparts
    cases w.plain.node k <;> exact id
  unfold Merge.retagAt
  rw [← hk.eq]
  exact ⟨hw.set hk hbecomes hparts, hw.changes_set hk hbecomes⟩

/-! ### Mappings that merge others -/

/-- What is merged at a place, and the nodes that are left, are the same in both documents. -/
def AgreeAt (step : Merge.Step) : Prop :=
  ∀ (w : NodePair) (place : Nat), Twins w → Settled w place → (w.plain.node place).isCollection →
    Agree w id (fun _ _ => True) (step place w.plain) (step place w.quoted)

def AgreeTaken (w : NodePair) (x y : Except Fault (Nodes × List (Nat × Nat))) : Prop :=
  Agree w Prod.fst (fun a b => b.2 = a.2 ∧ ∀ e ∈ a.2, SettledEntry ⟨a.1, b.1⟩ e) x y

theorem agree_takeMapping {step : Merge.Step} (hstep : AgreeAt step) (hw : Twins w)
    (hplace : Settled w place) :
    AgreeTaken w (Merge.takeMapping step place w.plain) (Merge.takeMapping step place w.quoted) := by
  unfold Merge.takeMapping
  rw [← hplace.eq]
  split
  case h_1 hnode =>
    refine agree_bind (hstep w place hw hplace (by rw [hnode]; rfl)) fun a b hab hgrows _ => ?_
    have hsettled := hgrows.settled hplace
    exact Or.inr ⟨_, _, rfl, rfl, hab, .refl _, hsettled.entriesAt_eq, hab.entriesAt place⟩
  case h_2 => exact agree_error _

theorem agree_takeItems {step : Merge.Step} (hstep : AgreeAt step) :
    ∀ {items : List Nat} {w : NodePair}, Twins w → (∀ i ∈ items, Settled w i) →
      AgreeTaken w (Merge.takeItems step items w.plain) (Merge.takeItems step items w.quoted)
  | [], w, hw, _ => Or.inr ⟨_, _, rfl, rfl, hw, .refl _, rfl, nofun⟩
  | i :: items, w, hw, hitems => by
    obtain ⟨hi, hitems⟩ := List.forall_mem_cons.mp hitems
    refine agree_bind (agree_takeMapping hstep hw hi) fun a b hab hgrows ⟨heq, ha⟩ => ?_
    refine agree_bind (agree_takeItems hstep hab fun i hi => hgrows.settled (hitems i hi))
      fun c d hcd hgrows' ⟨heq', hc⟩ => ?_
    refine Or.inr ⟨_, _, rfl, rfl, hcd, .refl _, by rw [heq, heq'], ?_⟩
    exact List.forall_mem_append.mpr ⟨hc, fun e he => (ha e he).grows hgrows'.toGrows⟩

theorem agree_take {step : Merge.Step} (hstep : AgreeAt step) (hw : Twins w) (hplace : Settled w place) :
    AgreeTaken w (Merge.take step place w.plain) (Merge.take step place w.quoted) := by
  have hparts := hw.parts place
  unfold Merge.take
  rw [← hplace.eq]
  split
  case h_1 => exact agree_takeMapping hstep hw hplace
  case h_2 hnode =>
    rw [hnode] at hparts
    exact agree_takeItems hstep hw hparts
  case h_3 => exact agree_error _

theorem settledEntries_of_changes {w' : NodePair} (hchanges : Changes w w')
    (h : ∀ e ∈ entries, SettledEntry w e) : ∀ e ∈ entries, SettledEntry w' e :=
  fun e he => (h e he).grows hchanges.toGrows

/-- What is merged under a key is taken over from a mapping that is left without that key. -/
theorem agree_takeMerged {step : Merge.Step} (hstep : AgreeAt step) (hw : Twins w)
    (hplace : Settled w place) (hcollection : (w.plain.node place).isCollection) (hv : Settled w v)
    (hentries : ∀ e ∈ entries, SettledEntry w e) :
    AgreeTaken w (Merge.take step v (Merge.setEntries place entries w.plain))
      (Merge.take step v (Merge.setEntries place entries w.quoted)) := by
  obtain ⟨hset, hchanges⟩ := agree_setEntries hw hplace hcollection hentries
  exact agree_changes hchanges (agree_take hstep hset (hchanges.settled hv))

theorem agree_mergeFrom {step : Merge.Step} (hstep : AgreeAt step) :
    ∀ {rest own merged : List (Nat × Nat)} {w : NodePair}, Twins w → Settled w place →
      (w.plain.node place).isCollection → (∀ e ∈ rest, SettledEntry w e) →
      (∀ e ∈ own, SettledEntry w e) → (∀ e ∈ merged, SettledEntry w e) →
      Agree w id (fun _ _ => True) (Merge.mergeFrom step place own merged rest w.plain)
        (Merge.mergeFrom step place own merged rest w.quoted)
  | [], own, merged, w, hw, hplace, hcollection, _, hown, hmerged => by
    have hall : ∀ e ∈ merged ++ own, SettledEntry w e := List.forall_mem_append.mpr ⟨hmerged, hown⟩
    obtain ⟨hset, hgrows⟩ := agree_setEntries hw hplace hcollection hall
    exact Or.inr ⟨_, _, rfl, rfl, hset, hgrows, trivial⟩
  | (k, v) :: rest, own, merged, w, hw, hplace, hcollection, hrest, hown, hmerged => by
    obtain ⟨he, hrest⟩ := List.forall_mem_cons.mp hrest
    have hown' : ∀ e ∈ own ++ [(k, v)], SettledEntry w e :=
      List.forall_mem_append.mpr ⟨hown, List.forall_mem_singleton.mpr he⟩
    unfold Merge.mergeFrom
    rw [he.key.tagAt_eq]
    split
    case isTrue htag =>
      have hv : Settled w v := he.settled (by rw [htag]; decide)
      have htaken := agree_takeMerged hstep hw hplace hcollection hv
        (List.forall_mem_append.mpr ⟨hown, hrest⟩)
      refine agree_bind htaken fun a b hab hlater ⟨heq, ha⟩ => ?_
      have hplace' := hlater.settled hplace
      have hcollection' := hlater.collection hcollection
      have hmerged' : ∀ e ∈ merged ++ a.2, SettledEntry ⟨a.1, b.1⟩ e :=
        List.forall_mem_append.mpr ⟨settledEntries_of_changes hlater hmerged, ha⟩
      have hpresent := hab.entriesAt place
      -- Merging the other mapping may have completed this one.
      have hopen := any_isOpen_eq hpresent
      have hentries : Nodes.entriesAt b.1 place = Nodes.entriesAt a.1 place := hplace'.entriesAt_eq
      dsimp only at hopen ⊢
      rw [hentries, hopen, heq]
      split
      case isTrue =>
        exact agree_mergeFrom hstep hab hplace' hcollection' (settledEntries_of_changes hlater hrest)
          (settledEntries_of_changes hlater hown) hmerged'
      case isFalse =>
        obtain ⟨hset', hgrows''⟩ := agree_setEntries hab hplace' hcollection'
          (List.forall_mem_append.mpr ⟨hmerged', hpresent⟩)
        exact Or.inr ⟨_, _, rfl, rfl, hset', hgrows'', trivial⟩
    case isFalse =>
      split
      case isTrue htag =>
        obtain ⟨hset, hgrows⟩ := agree_retagAt hw he.key htag
        refine agree_changes hgrows ?_
        exact agree_mergeFrom hstep hset (hgrows.settled hplace) (hgrows.collection hcollection)
          (settledEntries_of_changes hgrows hrest) (settledEntries_of_changes hgrows hown')
          (settledEntries_of_changes hgrows hmerged)
      case isFalse => exact agree_mergeFrom hstep hw hplace hcollection hrest hown' hmerged

theorem agree_mergeWithin : ∀ depth : Nat, AgreeAt (Merge.mergeWithin depth)
  | 0 => fun _ _ _ _ _ => agree_error _
  | depth + 1 => by
    intro w place hw hplace hcollection
    unfold Merge.mergeWithin
    rw [hplace.entriesAt_eq]
    exact agree_mergeFrom (agree_mergeWithin depth) hw hplace hcollection (hw.entriesAt place) nofun nofun

/-- Documents that differ in the quotes around versions still do once a mapping is merged. -/
theorem agree_mergeAt : AgreeAt Merge.mergeAt := by
  intro w place hw hplace hcollection
  unfold Merge.mergeAt
  rw [hplace.entriesAt_eq, any_isOpen_eq (hw.entriesAt place), size_eq hw]
  split
  · exact agree_mergeWithin _ w place hw hplace hcollection
  · exact Or.inr ⟨_, _, rfl, rfl, hw, .refl _, trivial⟩

end Provision.Yaml
