import Provision.Proofs.Yaml.Filling
import Provision.Yaml.Document

namespace Provision.Yaml

open Provision.Manifest (Alike IsVersionKey isSingle isWord isPair Respelled RespelledItems RespelledEntries)

namespace Objects

variable {α β γ : Type}

/-! ### Closed values -/

/-- The values kept so far, which differ in the spelling of versions. -/
structure ClosedAlike (kept kept' : Closed) : Prop where
  size : kept'.size = kept.size
  values (j : Nat) : Option.Rel Respelled kept[j]?.join kept'[j]?.join

theorem ClosedAlike.set {kept kept' : Closed} {place : Nat} {v v' : Value}
    (hkept : ClosedAlike kept kept')
    (h : Respelled v v') :
    ClosedAlike (kept.setIfInBounds place (some v)) (kept'.setIfInBounds place (some v')) where
  size := by simpa using hkept.size
  values j := by
    rw [Array.getElem?_setIfInBounds, Array.getElem?_setIfInBounds, hkept.size]
    split
    case isTrue =>
      split
      · exact .some h
      · exact .none
    case isFalse => exact hkept.values j

def Alongsides (Q : α → β → Prop) (p : StateM Closed α) (p' : StateM Closed β) : Prop :=
  ∀ c c', ClosedAlike c c' → Q (p.run c).1 (p'.run c').1 ∧ ClosedAlike (p.run c).2 (p'.run c').2

inductive EachAlike (Q : α → β → β → Prop) : List α → List β → List β → Prop
  | nil : EachAlike Q [] [] []
  | cons {a b b' as bs bs'} (h : Q a b b') (hs : EachAlike Q as bs bs') :
      EachAlike Q (a :: as) (b :: bs) (b' :: bs')

theorem alongsides_pure {Q : α → β → Prop} {a : α} {b : β} (h : Q a b) :
    Alongsides Q (pure a) (pure b) :=
  fun _ _ hc => ⟨h, hc⟩

theorem alongsides_bind {α' β' : Type} {Q : α → β → Prop} {R : α' → β' → Prop} {p : StateM Closed α}
    {p' : StateM Closed β}
    {q : α → StateM Closed α'} {q' : β → StateM Closed β'} (hp : Alongsides Q p p')
    (hq : ∀ a b, Q a b → Alongsides R (q a) (q' b)) : Alongsides R (p >>= q) (p' >>= q') := by
  intro c c' hc
  obtain ⟨hQ, hc⟩ := hp c c' hc
  exact hq _ _ hQ _ _ hc

theorem alongsides_mapM {Q : α → β → β → Prop} {f f' : α → StateM Closed β} :
    ∀ {l : List α}, (∀ a ∈ l, Alongsides (Q a) (f a) (f' a)) →
      Alongsides (EachAlike Q l) (l.mapM f) (l.mapM f')
  | [], _ => by
    rw [List.mapM_nil, List.mapM_nil]
    exact alongsides_pure .nil
  | a :: l, hf => by
    obtain ⟨ha, hl⟩ := List.forall_mem_cons.mp hf
    rw [List.mapM_cons, List.mapM_cons]
    refine alongsides_bind ha fun b b' hb => ?_
    exact alongsides_bind (alongsides_mapM hl) fun bs bs' hbs => alongsides_pure (.cons hb hbs)

theorem alongsides_imp {Q R : α → β → Prop} {p : StateM Closed α} {p' : StateM Closed β}
    (h : Alongsides Q p p')
    (hQR : ∀ a b, Q a b → R a b) : Alongsides R p p' := by
  intro c c' hc
  obtain ⟨hQ, hc⟩ := h c c' hc
  exact ⟨hQR _ _ hQ, hc⟩

theorem alongsides_kept {Q : α → β → Prop} {place : Nat} {f : Value → α} {f' : Value → β}
    {p : StateM Closed α}
    {p' : StateM Closed β} (hkept : ∀ v v', Respelled v v' → Q (f v) (f' v')) (hp : Alongsides Q p p') :
    Alongsides Q
      (do if let some v := (← get)[place]?.join then return f v else p)
      (do if let some v := (← get)[place]?.join then return f' v else p') := by
  intro kept kept' hclosed
  have hvalue := hclosed.values place
  simp only [StateT.run_bind, StateT.run_get, pure_bind]
  generalize kept[place]?.join = a, kept'[place]?.join = b at hvalue
  cases hvalue with
  | none => exact hp kept kept' hclosed
  | some h => exact ⟨hkept _ _ h, hclosed⟩

/-! ### Values with labels -/

structure OpenAlike (Q : Value → Value → Prop) (x x' : Open) : Prop where
  labels : x'.2 = x.2
  value : Q x.1 x'.1

theorem alongsides_keep {place : Nat} {x x' : Open} (h : OpenAlike Respelled x x') :
    Alongsides (OpenAlike Respelled) (keep place x) (keep place x') := by
  intro c c' hc
  unfold keep
  rw [h.labels]
  split
  case isTrue => exact ⟨h, hc.set h.value⟩
  case isFalse => exact ⟨h, hc⟩

theorem OpenAlike.labelled {label : Nat} {labels : List Nat} {v v' : Value} (h : Respelled v v') :
    OpenAlike Respelled (labelled label v labels) (labelled label v' labels) := by
  unfold Objects.labelled
  split
  · exact ⟨rfl, h⟩
  · exact ⟨rfl, .knot h⟩

/-- Values at one place: respelled, or two spellings of a version where the nodes differ. -/
def AlikeAt (w : NodePair) (j : Nat) (v v' : Value) : Prop :=
  Respelled v v' ∨ ¬Settled w j ∧ isWord v ∧ isWord v' ∧ Alike v v'

variable {w : NodePair} {s s' : Objects} {j place : Nat} {within items keys : List Nat}
  {entries : List (Nat × Nat)}
  {o : Object}

theorem AlikeAt.respelled {v v' : Value} (h : AlikeAt w j v v') (hj : Settled w j) : Respelled v v' :=
  h.resolve_right fun hspelled => hspelled.1 hj

theorem EachAlike.labels_eq {Q : α → Value → Value → Prop} {as : List α} {xs xs' : List Open}
    (h : EachAlike (fun a => OpenAlike (Q a)) as xs xs') : xs'.map Prod.snd = xs.map Prod.snd := by
  induction h with
  | nil => rfl
  | cons h _ ih => rw [List.map_cons, List.map_cons, h.labels, ih]

theorem openAll_snd_eq {xs xs' : List Open} (h : xs'.map Prod.snd = xs.map Prod.snd) :
    (openAll xs').2 = (openAll xs).2 := by
  unfold openAll
  rw [List.flatMap_def, List.flatMap_def, h]

theorem EachAlike.respelledItems {xs xs' : List Open}
    (h : EachAlike (fun i => OpenAlike (AlikeAt w i)) items xs xs')
    (hitems : ∀ i ∈ items, Settled w i) : RespelledItems (xs.map Prod.fst) (xs'.map Prod.fst) := by
  induction h with
  | nil => exact .nil
  | cons h _ ih =>
    obtain ⟨hi, hitems⟩ := List.forall_mem_cons.mp hitems
    exact .cons (h.value.respelled hi) (ih hitems)

theorem EachAlike.respelledEntries (hs : Alongside s s') {xs xs' : List Open}
    (h : EachAlike (fun e => OpenAlike (AlikeAt (sides s s') e.2)) entries xs xs')
    (hentries : ∀ e ∈ entries, MadeEntry (sides s s') s e) :
    RespelledEntries ((entries.map fun (k, _) => s.singleValue k).zip (xs.map Prod.fst))
      ((entries.map fun (k, _) => s'.singleValue k).zip (xs'.map Prod.fst)) := by
  induction h with
  | nil => exact .nil
  | @cons e x x' es xs xs' h _ ih =>
    obtain ⟨he, hentries⟩ := List.forall_mem_cons.mp hentries
    have hkey : s'.singleValue e.1 = s.singleValue e.1 := hs.singleValue_eq he.key
    show RespelledEntries ((s.singleValue e.1, x.1) :: _) ((s'.singleValue e.1, x'.1) :: _)
    rw [hkey]
    obtain hvalue | ⟨hsettled, hv, hv', halike⟩ := h.value
    · exact .cons hvalue (ih hentries)
    · obtain ⟨key, hversion, htext⟩ := he.value.resolve_left hsettled
      have hkey : s.singleValue e.1 = .text key := by
        unfold singleValue
        rw [htext]
      rw [hkey]
      exact .spelled hversion hv hv' halike (ih hentries)

/-! ### Pairs -/

def PairAlike (x x' : Open × Open) : Prop :=
  x'.1.2 = x.1.2 ∧ x'.2.2 = x.2.2

theorem isPair_labelled {label : Nat} {a b : Value} {labels : List Nat} :
    isPair (labelled label (.pair a b) labels).1 := by
  unfold labelled
  split <;> rfl

theorem labelled_snd_eq {label : Nat} {v v' : Value} {labels : List Nat} :
    (labelled label v' labels).2 = (labelled label v labels).2 := by
  unfold labelled
  split <;> rfl

theorem pairValues_alike (place : Nat) (hs : Alongside s s') {xs xs' : List (Open × Open)}
    {as : List α} (h : EachAlike (fun _ => PairAlike) as xs xs') : ∀ position : Nat,
      (pairValues s' place position xs').map Prod.snd = (pairValues s place position xs).map Prod.snd ∧
        RespelledItems ((pairValues s place position xs).map Prod.fst)
          ((pairValues s' place position xs').map Prod.fst) := by
  induction h with
  | nil => exact fun _ => ⟨rfl, .nil⟩
  | cons h _ ih =>
    intro position
    obtain ⟨hlabels, hitems⟩ := ih (position + 1)
    have hlabel : s'.pairLabel place position = s.pairLabel place position := by
      have hsize : s'.nodes.size = s.nodes.size := hs.twins.size
      unfold pairLabel
      rw [hsize]
    unfold pairValues
    rw [h.1, h.2, hlabel]
    refine ⟨?_, .pair isPair_labelled isPair_labelled hitems⟩
    exact congrArg₂ List.cons labelled_snd_eq hlabels

theorem alongsides_pairPart {Q Q' : Value → Value → Prop} {p q p' q' : StateM Closed Open}
    (hp : Alongsides (OpenAlike Q) p p') (hq : Alongsides (OpenAlike Q') q q') :
    Alongsides PairAlike (do return (← p, ← q)) (do return (← p', ← q')) :=
  alongsides_bind hp fun _ _ hx => alongsides_bind hq fun _ _ hy => alongsides_pure ⟨hx.labels, hy.labels⟩

/-! ### Containers -/

theorem alongsides_container {f g : List Value → Value} {xs xs' : List Open}
    (hlabels : xs'.map Prod.snd = xs.map Prod.snd)
    (h : Respelled (f (xs.map Prod.fst)) (g (xs'.map Prod.fst))) :
    Alongsides (OpenAlike (AlikeAt w place))
      (match openAll xs with
        | (vs, labels) => keep place (labelled place (f vs) labels))
      (match openAll xs' with
        | (vs, labels) => keep place (labelled place (g vs) labels)) := by
  show Alongsides _ (keep place (labelled place (f (xs.map Prod.fst)) (openAll xs).2))
    (keep place (labelled place (g (xs'.map Prod.fst)) (openAll xs').2))
  rw [openAll_snd_eq hlabels]
  exact alongsides_imp (alongsides_keep (.labelled h)) fun _ _ hx => ⟨hx.labels, Or.inl hx.value⟩

theorem alongsides_follow (hs : Alongside s s') : ∀ (depth : Nat) (within : List Nat) (place : Nat),
    Alongsides (OpenAlike (AlikeAt (sides s s') place)) (follow s within place depth)
      (follow s' within place depth)
  | 0, _, _ => alongsides_pure ⟨rfl, Or.inl (.single rfl)⟩
  | depth + 1, within, place => by
    -- A part is inside of the container, so a way back to it is one in both documents.
    have hpart := alongsides_follow hs depth (place :: within)
    unfold follow
    refine alongsides_kept (fun v v' h => ⟨rfl, Or.inl h⟩) ?_
    dsimp only
    obtain heq | ⟨hsettled, v, v', hv, hv', hword, hword', halike⟩ := hs.made place
    · rw [heq]
      split
      case h_1 => exact alongsides_pure ⟨rfl, Or.inl (.single rfl)⟩
      case h_2 o ho =>
        split
        case isTrue => exact alongsides_pure ⟨rfl, Or.inl (.single rfl)⟩
        case isFalse =>
          have hparts := hs.parts ho
          cases o with
          | single v => exact alongsides_pure ⟨rfl, Or.inl (.single ((hs.fits ho).single rfl))⟩
          | undefined => exact alongsides_pure ⟨rfl, Or.inl (.single rfl)⟩
          | list items =>
            refine alongsides_bind (alongsides_mapM fun i _ => hpart i) fun xs xs' hxs => ?_
            have hitems := hxs.respelledItems hparts
            exact alongsides_container (f := .list) (g := .list) hxs.labels_eq (.list hitems)
          | pairs items =>
            have hpairs := alongsides_mapM fun e (_ : e ∈ items) =>
              alongsides_pairPart (hpart e.1) (hpart e.2)
            refine alongsides_bind hpairs fun xs xs' hxs => ?_
            obtain ⟨hlabels, hitems⟩ := pairValues_alike place hs hxs 0
            exact alongsides_container (f := .list) (g := .list) hlabels (.list hitems)
          | map entries =>
            refine alongsides_bind (alongsides_mapM fun e _ => hpart e.2) fun xs xs' hxs => ?_
            exact alongsides_container
              (f := fun vs => .map ((entries.map fun (k, _) => s.singleValue k).zip vs))
              (g := fun vs => .map ((entries.map fun (k, _) => s'.singleValue k).zip vs)) hxs.labels_eq
              (.map (EachAlike.respelledEntries hs hxs hparts))
          | set keys =>
            have hkeys : keys.map (fun k => s'.singleValue k) = keys.map fun k => s.singleValue k :=
              List.map_congr_left fun k hk => hs.singleValue_eq (hparts k hk)
            dsimp only
            rw [hkeys]
            exact alongsides_imp (alongsides_keep ⟨rfl, .single rfl⟩) fun _ _ hx => ⟨hx.labels, Or.inl hx.value⟩
    · rw [hv, hv']
      dsimp only
      split
      case isTrue => exact alongsides_pure ⟨rfl, Or.inl (.single rfl)⟩
      case isFalse => exact alongsides_pure ⟨rfl, Or.inr ⟨hsettled, hword, hword', halike⟩⟩

theorem Alongside.respelled (hs : Alongside s s') {root : Nat} (hroot : Settled (sides s s') root) :
    Respelled (s.value root) (s'.value root) := by
  have hsize : s'.nodes.size = s.nodes.size := hs.twins.size
  have hstart : ClosedAlike (Array.replicate s.nodes.size none) (Array.replicate s.nodes.size none) := by
    refine ⟨rfl, fun j => ?_⟩
    rw [Array.getElem?_replicate]
    split <;> exact .none
  unfold value
  rw [hsize]
  exact (alongsides_follow hs (s.nodes.size + 1) [] root _ _ hstart).1.value.respelled hroot

end Objects

theorem read_of_graph {floats : Bool} {text : Stream} {g : Graph}
    (h : Graph.ofStream floats text = .ok (some g)) :
    read floats text = (Objects.ofGraph g).map fun s => s.value g.root := by
  unfold read
  rw [h]
  show (Objects.ofGraph g >>= fun s => pure (s.value g.root)) = _
  cases Objects.ofGraph g <;> rfl

/-- Texts whose tokens differ in the quotes around versions fail alike, or have values that differ in the
spelling of versions. -/
theorem read_requoted {text text' : Stream}
    (h : Requoted (Tokens.ofStream text).settled (Tokens.ofStream text').settled)
    (hending : (Tokens.ofStream text').ending = (Tokens.ofStream text).ending) :
    (∃ f, read false text = .error f ∧ read false text' = .error f) ∨
      ∃ v v', read false text = .ok v ∧ read false text' = .ok v' ∧ Respelled v v' := by
  obtain ⟨f, hs, hs'⟩ | ⟨hs, hs'⟩ | ⟨g, g', hs, hs', hg⟩ := Graph.ofStream_requoted h hending
  · unfold read
    rw [hs, hs']
    exact Or.inl ⟨f, rfl, rfl⟩
  · unfold read
    rw [hs, hs']
    exact Or.inr ⟨.null, .null, rfl, rfl, .single rfl⟩
  · rw [read_of_graph hs, read_of_graph hs', hg.root]
    obtain ⟨f, hs, hs'⟩ | ⟨s, s', hs, hs', halong, hroot⟩ := Objects.ofGraph_twins hg
    · rw [hs, hs']
      exact Or.inl ⟨f, rfl, rfl⟩
    · rw [hs, hs']
      exact Or.inr ⟨_, _, rfl, rfl, halong.respelled hroot⟩

end Provision.Yaml
