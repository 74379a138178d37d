import Provision.Proofs.Yaml.Pairing
import Provision.Proofs.Yaml.Twins

namespace Provision.Yaml

open Provision.Manifest (IsVersionKey)

/-- Tokens that stand for the same but for quotes around the value of a version or range. -/
inductive Requoted : List Token → List Token → Prop
  | nil : Requoted [] []
  | cons (t : Token) {ts us} (h : Requoted ts us) : Requoted (t :: ts) (t :: us)
  | version {key text : String} {isPlain : Bool} {ts us} (hkey : IsVersionKey key) (ht : IsKept text)
      (h : Requoted ts us) :
      Requoted (.key :: .scalar key isPlain :: .value :: .scalar text true :: ts)
        (.key :: .scalar key isPlain :: .value :: .scalar text false :: us)

theorem Requoted.refl : ∀ ts : List Token, Requoted ts ts
  | [] => .nil
  | t :: ts => .cons t (refl ts)

theorem Requoted.head?_eq {ts us : List Token} (h : Requoted ts us) : us.head? = ts.head? := by
  cases h <;> rfl

theorem Requoted.length_eq {ts us : List Token} (h : Requoted ts us) : us.length = ts.length := by
  induction h with
  | nil => rfl
  | cons t _ ih => simp [ih]
  | version _ _ _ ih => simp [ih]

theorem Requoted.drop {ts us : List Token} (h : Requoted ts us) (hkey : ¬ts.head?.any Graph.isKey) :
    Requoted (ts.drop 1) (us.drop 1) := by
  cases h with
  | nil => exact .nil
  | cons t h => exact h
  | version => exact absurd rfl hkey

namespace Graph

variable {α β : Type} {s s' r r' : State} {p : Parser α} {q : α → Parser β}
  {P : State → State → α → Prop} {R : State → State → β → Prop}

def pairOf (s s' : State) : NodePair := ⟨s.nodes, s'.nodes⟩

/-- Two readings that have come equally far. -/
structure Paired (s s' : State) : Prop where
  tokens : Requoted s.tokens s'.tokens
  ending : s'.ending = s.ending
  anchors : s'.anchors = s.anchors
  twins : Twins (pairOf s s')
  anchored : ∀ a ∈ s.anchors, Settled (pairOf s s') a.2

def pairing : Pairing State where
  Paired := Paired
  Grows s s' r r' := Grows (pairOf s s') (pairOf r r')
  refl _ _ := .refl _
  trans := .trans

abbrev Lockstep (p : Parser α) (P : State → State → α → Prop) (s s' : State) : Prop :=
  Yaml.Lockstep pairing p P s s'

theorem lockstep_bind (hp : Lockstep p P s s')
    (hq : ∀ a r r', Paired r r' → Grows (pairOf s s') (pairOf r r') → P r r' a → Lockstep (q a) R r r') :
    Lockstep (p >>= q) R s s' :=
  Yaml.lockstep_bind hp hq

/-! ### Tokens -/

theorem run_peek? (s : State) : peek?.run s = match s.tokens, s.ending with
    | [], some f => .error f
    | tokens, _ => .ok (tokens.head?, s) := by
  obtain ⟨_ | _, _ | _, _, _⟩ := s <;> rfl

theorem lockstep_peek? {q : Option Token → Parser β} (h : Paired s s')
    (hq : ∀ t, s.tokens.head? = t → Lockstep (q t) R s s') : Lockstep (peek? >>= q) R s s' := by
  have hnext := hq _ rfl
  unfold Lockstep Yaml.Lockstep at *
  simp only [StateT.run_bind, run_peek?, h.ending]
  have hhead := h.tokens.head?_eq
  cases hs : s.tokens with
  | nil =>
    rw [hs] at hhead hnext
    rw [List.head?_nil, List.head?_eq_none_iff] at hhead
    rw [hhead]
    cases s.ending with
    | none => exact hnext
    | some f => exact Or.inl ⟨f, rfl, rfl⟩
  | cons t ts =>
    rw [hs] at hhead hnext
    obtain ⟨us, hus⟩ := List.head?_eq_some_iff.mp hhead
    rw [hus]
    exact hnext

theorem lockstep_sees {p : Token → Bool} {q : Bool → Parser β} (h : Paired s s')
    (hq : ∀ b, s.tokens.head?.any p = b → Lockstep (q b) R s s') : Lockstep (sees p >>= q) R s s' := by
  rw [sees, bind_assoc]
  refine lockstep_peek? h fun t ht => ?_
  rw [pure_bind]
  exact hq _ (ht ▸ rfl)

def State.dropped (s : State) : State := { s with tokens := s.tokens.drop 1 }

theorem Paired.dropped (h : Paired s s') (hkey : ¬s.tokens.head?.any isKey) :
    Paired s.dropped s'.dropped :=
  ⟨h.tokens.drop hkey, h.ending, h.anchors, h.twins, h.anchored⟩

theorem Paired.behind {t : Token} (h : Paired s s') (ht : s.tokens.head? = some t)
    (hkey : isKey t = false) : Paired s.dropped s'.dropped :=
  h.dropped (by simp [ht, hkey])

theorem lockstep_drop {q : Unit → Parser β} (h : Lockstep (q ()) R s.dropped s'.dropped) :
    Lockstep (Graph.drop >>= q) R s s' := h

theorem eq_key_of_isKey {t : Token} (h : isKey t) : t = .key := by
  cases t with
  | key => rfl
  | _ => cases h

theorem not_isKey_of_any {p : Token → Bool} (hp : ¬p .key) {next : Option Token} (h : next.any p) :
    ¬next.any isKey := by
  cases next with
  | none => cases h
  | some t =>
    intro hkey
    obtain rfl := eq_key_of_isKey hkey
    exact hp h

theorem lockstep_accept {p : Token → Bool} {q : Bool → Parser β} (h : Paired s s') (hp : ¬p .key)
    (hfalse : Lockstep (q false) R s s')
    (htrue : Paired s.dropped s'.dropped → Lockstep (q true) R s.dropped s'.dropped) :
    Lockstep (accept p >>= q) R s s' := by
  rw [accept, bind_assoc]
  refine lockstep_peek? h fun t ht => ?_
  subst ht
  cases hfound : s.tokens.head?.any p with
  | false => exact hfalse
  | true => exact htrue (h.dropped (not_isKey_of_any hp hfound))

/-! ### Nodes -/

theorem Paired.pushed {n n' : Node} (h : Paired s s') (hn : n.Requoted n')
    (hparts : PartsSettled (pairOf s s') n) :
    Paired { s with nodes := s.nodes.push n } { s' with nodes := s'.nodes.push n' } where
  tokens := h.tokens
  ending := h.ending
  anchors := h.anchors
  twins := h.twins.push hn hparts
  anchored a ha := (h.twins.grows_push n n').settled (h.anchored a ha)

/-- What a new node is, in a state that has the same tokens. -/
structure Added (s : State) (n : Node) (r r' : State) (i : Nat) : Prop where
  settled : Settled (pairOf r r') i
  node : r.nodes.node i = n
  tokens : r.tokens = s.tokens

theorem lockstep_add {n : Node} (h : Paired s s') (hparts : PartsSettled (pairOf s s') n) :
    Lockstep (add n) (Added s n) s s' := by
  refine Or.inr ⟨s.nodes.size, _, _, rfl, ?_, h.pushed (.same n) hparts, h.twins.grows_push n n,
    h.twins.settled_push n, ?_, rfl⟩
  · have hsize : s'.nodes.size = s.nodes.size := h.twins.size
    rw [← hsize]
    rfl
  · exact (node_push s.nodes n _).trans (if_pos rfl)

theorem Paired.anchored_at {name : String} {i : Nat} (h : Paired s s') (hi : Settled (pairOf s s') i) :
    Paired { s with anchors := (name, i) :: s.anchors }
      { s' with anchors := (name, i) :: s'.anchors } where
  tokens := h.tokens
  ending := h.ending
  anchors := congrArg (List.cons _) h.anchors
  twins := h.twins
  anchored := List.forall_mem_cons.mpr ⟨hi, h.anchored⟩

theorem lockstep_addAnchored {anchor : Option String} {n : Node} (h : Paired s s')
    (hparts : PartsSettled (pairOf s s') n) : Lockstep (addAnchored anchor n) (Added s n) s s' := by
  cases anchor with
  | none => exact lockstep_add h hparts
  | some name =>
    refine lockstep_get (by simp only [h.anchors]) ?_
    split
    case isTrue => exact lockstep_throw_bind
    case isFalse =>
      refine lockstep_bind (lockstep_add h hparts) fun place r r' hr _ hadded => ?_
      exact Or.inr ⟨place, _, _, rfl, rfl, hr.anchored_at hadded.settled, .refl _,
        hadded.settled, hadded.node, hadded.tokens⟩

theorem lockstep_aliased {name : String} (h : Paired s s') :
    Lockstep (aliased name) (fun r r' i => Settled (pairOf r r') i) s s' := by
  refine lockstep_get (by simp only [h.anchors]) ?_
  split
  case h_1 place hplace =>
    obtain ⟨front, back, hanchors, -⟩ := List.lookup_eq_some_iff.mp hplace
    exact lockstep_pure h (h.anchored (name, place) (by simp [hanchors]))
  case h_2 => exact lockstep_throw

theorem lockstep_setNode {i : Nat} {n : Node} (h : Paired s s') (hi : (s.nodes.node i).isCollection)
    (hn : n.isCollection) (hparts : PartsSettled (pairOf s s') n) :
    Lockstep (setNode i n) (fun _ _ _ => True) s s' := by
  have hsettled := h.twins.settled_of_isCollection hi
  have hbecomes : Node.Becomes (s.nodes.node i) n := .collection hi hn
  have hgrows : Grows (pairOf s s') ((pairOf s s').set i n n) :=
    (h.twins.changes_set hsettled hbecomes).toGrows
  have htwins := h.twins.set hsettled hbecomes hparts
  refine Or.inr ⟨(), _, _, rfl, rfl, ⟨h.tokens, h.ending, h.anchors, htwins, ?_⟩, hgrows, trivial⟩
  exact fun a ha => hgrows.settled (h.anchored a ha)

theorem lockstep_collection {make : List α → Node} {read : Parser (List α)} {f : Front} {level : Nat}
    (h : Paired s s') (hmake : ∀ xs, (make xs).isCollection) (hempty : ∀ w, PartsSettled w (make []))
    (hread : ∀ r r', Paired r r' → r.tokens = s.tokens →
      Lockstep read (fun r r' xs => PartsSettled (pairOf r r') (make xs)) r r') :
    Lockstep (collection f level make read) (fun r r' i => Settled (pairOf r r') i) s s' := by
  refine lockstep_bind (lockstep_addAnchored h (hempty _)) fun place r r' hr _ hadded => ?_
  have hplace : (r.nodes.node place).isCollection := by
    rw [hadded.node]
    exact hmake []
  split
  case isTrue => exact Or.inl ⟨_, rfl, rfl⟩
  case isFalse =>
    refine lockstep_bind (hread r r' hr hadded.tokens) fun xs t t' ht hgrows hparts => ?_
    have hset := lockstep_setNode ht (hgrows.collection hplace) (hmake xs) hparts
    refine lockstep_bind hset fun _ u u' hu hgrows' _ => ?_
    exact lockstep_pure hu (hgrows'.settled (hgrows.settled hadded.settled))

/-! ### Parts of nodes -/

abbrev Steady (p : Parser α) (s s' : State) : Prop :=
  Lockstep p (fun _ _ _ => True) s s'

theorem steady_properties (h : Paired s s') : Steady properties s s' := by
  refine lockstep_peek? h fun t ht => ?_
  split
  case h_1 a =>
    have hdropped := h.behind ht rfl
    refine lockstep_drop (lockstep_peek? hdropped fun t ht => ?_)
    split
    case h_1 h' t =>
      exact lockstep_drop (lockstep_pure (hdropped.behind ht rfl) trivial)
    case h_2 => exact lockstep_pure hdropped trivial
  case h_2 h' t =>
    have hdropped := h.behind ht rfl
    refine lockstep_drop (lockstep_peek? hdropped fun t ht => ?_)
    split
    case h_1 a => exact lockstep_drop (lockstep_pure (hdropped.behind ht rfl) trivial)
    case h_2 => exact lockstep_pure hdropped trivial
  case h_3 => exact lockstep_pure h trivial

theorem steady_tagText {handles : Handles} (h : Paired s s') :
    ∀ tag : Option (Option String × String), Steady (tagText handles tag) s s'
  | none | some (none, _) => lockstep_pure h trivial
  | some (some handle, t) => by
    unfold tagText
    split
    case h_3 =>
      split
      · exact lockstep_pure h trivial
      · exact lockstep_throw
    all_goals exact lockstep_pure h trivial

theorem steady_front {settings : Settings} (h : Paired s s') : Steady (front settings) s s' := by
  refine lockstep_bind (steady_properties h) fun written r r' hr _ _ => ?_
  refine lockstep_bind (steady_tagText hr _) fun tag t t' ht _ _ => ?_
  exact lockstep_pure ht trivial

abbrev IsNode (r r' : State) (i : Nat) : Prop := Settled (pairOf r r') i

theorem lockstep_leftOut {settings : Settings} {f : Front} (h : Paired s s') :
    Lockstep (leftOut settings f) IsNode s s' := by
  unfold leftOut
  split
  case isTrue => exact lockstep_imp (lockstep_addAnchored h trivial) fun _ _ _ hadded => hadded.settled
  case isFalse => exact lockstep_throw

theorem lockstep_absent (h : Paired s s') : Lockstep (add .absent) IsNode s s' :=
  lockstep_imp (lockstep_add h trivial) fun _ _ _ hadded => hadded.settled

theorem lockstep_presentUnless {p : Token → Bool} {read : Parser Nat} (h : Paired s s')
    (hread : Lockstep read IsNode s s') : Lockstep (presentUnless p read) IsNode s s' := by
  refine lockstep_sees h fun b _ => ?_
  split
  · exact lockstep_absent h
  · exact hread

end Graph

end Provision.Yaml
