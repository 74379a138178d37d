import Provision.Proofs.Yaml.Composing
import Provision.Proofs.Yaml.Making

namespace Provision.Yaml.Objects

open Provision.Manifest (IsVersionKey)

variable {β : Type} {s s' r r' : Objects} {i j k v place : Nat} {o : Object} {entries : List (Nat × Nat)}
  {entry : Nat × Nat}

/-! ### Entries -/

theorem Alongside.singleValue_eq (h : Alongside s s') (hk : Settled (sides s s') k) :
    s'.singleValue k = s.singleValue k := by
  unfold singleValue
  rw [h.object?_eq hk]

theorem Alongside.insert_eq (h : Alongside s s') (hk : Settled (sides s s') k) :
    ∀ {entries : List (Nat × Nat)}, (∀ e ∈ entries, Settled (sides s s') e.1) →
      s'.insert k v entries = s.insert k v entries
  | [], _ => rfl
  | e :: entries, hentries => by
    obtain ⟨he, hentries⟩ := List.forall_mem_cons.mp hentries
    have hsame : s'.sameKey e.1 k = s.sameKey e.1 k := by
      unfold sameKey
      rw [h.object?_eq he, h.object?_eq hk]
    unfold insert
    rw [hsame, h.insert_eq hk hentries]

theorem object?_of_sameKey {key : String} (hk : s.object? k = some (.single (.text key)))
    (hsame : s.sameKey j k) : s.object? j = some (.single (.text key)) := by
  unfold sameKey at hsame
  rw [hk, Bool.or_eq_true, decide_eq_true_iff] at hsame
  obtain rfl | hsame := hsame
  · exact hk
  · cases hj : s.object? j with
    | none =>
      rw [hj] at hsame
      cases hsame
    | some p =>
      rw [hj] at hsame
      cases p with
      | single v => exact congrArg _ (congrArg _ (Value.sameKey_text hsame))
      | undefined | list | pairs | map | set => cases hsame

theorem madeEntry_insert (he : MadeEntry (sides s s') s (k, v)) :
    ∀ {entries : List (Nat × Nat)}, (∀ e ∈ entries, MadeEntry (sides s s') s e) →
      ∀ e ∈ s.insert k v entries, MadeEntry (sides s s') s e
  | [], _ => List.forall_mem_singleton.mpr he
  | e :: entries, hentries => by
    obtain ⟨hfirst, hentries⟩ := List.forall_mem_cons.mp hentries
    unfold insert
    split
    case isTrue hsame =>
      refine List.forall_mem_cons.mpr ⟨⟨hfirst.key, he.value.imp_right ?_⟩, hentries⟩
      exact fun ⟨key, hkey, htext⟩ => ⟨key, hkey, object?_of_sameKey htext hsame⟩
    case isFalse =>
      exact List.forall_mem_cons.mpr ⟨hfirst, madeEntry_insert he hentries⟩

theorem Alongside.madeEntry (h : Alongside s s') (he : SettledEntry (sides s s') entry)
    (hmade : IsMade entry.1 s) : MadeEntry (sides s s') s entry := by
  refine ⟨he.key, he.value.imp_right fun ⟨key, hkey, hnode⟩ => ⟨key, hkey, ?_⟩⟩
  obtain ⟨o, ho⟩ := Option.isSome_iff_exists.mp (hmade (h.size ▸ he.key.lt))
  exact ho.trans (congrArg some ((h.fits ho).text hnode))

abbrev AreMade (r r' : Objects) (entries : List (Nat × Nat)) : Prop :=
  ∀ e ∈ entries, MadeEntry (sides r r') r e

theorem lockstep_visitEntry (h : Alongside s s') (hentries : AreMade s s' entries)
    (he : SettledEntry (sides s s') entry) : Lockstep (visitEntry entries entry) AreMade s s' := by
  refine lockstep_bind (lockstep_visit h entry.1) fun _ r r' hr hadvances hmade => ?_
  have hkey := hadvances.settled he.key
  refine lockstep_get (by simp only [hr.object?_eq hkey]) ?_
  split
  case isTrue => exact lockstep_throw_bind
  case isFalse =>
    have hentry := hr.madeEntry (he.grows hadvances.nodes.toGrows) hmade
    refine lockstep_bind (lockstep_visit hr entry.2) fun _ t t' ht hadvances' _ => ?_
    have hentries' : AreMade t t' entries :=
      fun e he => ((hentries e he).advances hadvances).advances hadvances'
    have hentry' := hentry.advances hadvances'
    refine lockstep_get ?_ (lockstep_pure ht (madeEntry_insert hentry' hentries'))
    rw [ht.insert_eq hentry'.key fun e he => (hentries' e he).key]

/-! ### Merged entries -/

def withNodes (s : Objects) (nodes : Nodes) : Objects :=
  { s with nodes := nodes }

theorem advances_withNodes {a b : Nodes} (h : Changes (sides s s') ⟨a, b⟩) :
    Advances s s' (s.withNodes a) (s'.withNodes b) :=
  ⟨h, id, fun hj ho => ⟨_, hj, ho⟩⟩

theorem Alongside.withNodes {a b : Nodes} (h : Alongside s s') (hw : Twins ⟨a, b⟩)
    (hchanges : Changes (sides s s') ⟨a, b⟩) : Alongside (s.withNodes a) (s'.withNodes b) where
  twins := hw
  size := h.size.trans hchanges.size_eq.symm
  size' := h.size'
  waiting := h.waiting
  met j hj := hchanges.settled (h.met j hj)
  made j := by
    refine (h.made j).imp_right fun ⟨hsettled, v, v', hv, hspelled⟩ => ⟨fun hj => ?_, v, v', hv, hspelled⟩
    exact hsettled (hchanges.unsettled (h.lt hv) hj)
  fits hj := (h.fits hj).becomes (hchanges.becomes (h.lt hj))
  parts hj := (h.parts hj).advances (advances_withNodes hchanges)

theorem run_merge {q : Nodes → Maker β} (s : Objects) (place : Nat) :
    (do
      let nodes ← Merge.mergeAt place (← get).nodes
      modify fun s => { s with nodes := nodes }
      q nodes : Maker β).run s =
    (Merge.mergeAt place s.nodes).bind fun nodes => (q nodes).run (s.withNodes nodes) := by
  simp only [StateT.run_bind, StateT.run_get, pure_bind]
  cases Merge.mergeAt place s.nodes <;> rfl

theorem lockstep_entriesOf (h : Alongside s s') (hplace : Settled (sides s s') place) :
    Lockstep (entriesOf place) AreMade s s' := by
  have hnode : s'.nodes.node place = s.nodes.node place := hplace.eq.symm
  refine lockstep_get (by simp only [hnode]) ?_
  split
  case h_2 => exact lockstep_throw
  case h_1 tag entries hmapping =>
    have hcollection : ((sides s s').plain.node place).isCollection := by
      have hmapping' : (sides s s').plain.node place = .mapping tag entries := hmapping
      rw [hmapping']
      rfl
    have hmerge (s : Objects) :=
      run_merge (q := fun nodes => (nodes.entriesAt place).foldlM visitEntry []) s place
    unfold Yaml.Lockstep
    rw [hmerge, hmerge]
    obtain ⟨f, hs, hs'⟩ | ⟨a, b, hs, hs', hw, hchanges, -⟩ :=
      agree_mergeAt (sides s s') place h.twins hplace hcollection
    · have hs : Merge.mergeAt place s.nodes = .error f := hs
      have hs' : Merge.mergeAt place s'.nodes = .error f := hs'
      rw [hs, hs']
      exact Or.inl ⟨f, rfl, rfl⟩
    · have hs : Merge.mergeAt place s.nodes = .ok a := hs
      have hs' : Merge.mergeAt place s'.nodes = .ok b := hs'
      rw [hs, hs']
      have hentries : Nodes.entriesAt b place = Nodes.entriesAt a place :=
        (hchanges.settled hplace).entriesAt_eq
      have hfilled :
          Lockstep ((a.entriesAt place).foldlM visitEntry []) AreMade (s.withNodes a) (s'.withNodes b) :=
        lockstep_foldlM (R := pairing) (h.withNodes hw hchanges) nofun
          fun e he es r r' hr hadvances hes =>
            lockstep_visitEntry hr hes ((hw.entriesAt place e he).grows hadvances.nodes.toGrows)
      dsimp only [Except.bind]
      rw [hentries]
      exact hfilled.imp_right fun ⟨es, r, r', hs, hs', hr, hadvances, hes⟩ =>
        ⟨es, r, r', hs, hs', hr, (advances_withNodes hchanges).trans hadvances, hes⟩

/-! ### Containers -/

theorem lockstep_itemsOf (h : Alongside s s') (hplace : Settled (sides s s') place) :
    Lockstep (itemsOf place) (fun r r' items => ∀ i ∈ items, Settled (sides r r') i) s s' := by
  have hnode : s'.nodes.node place = s.nodes.node place := hplace.eq.symm
  have hparts := h.twins.parts place
  refine lockstep_get (by simp only [hnode]) ?_
  split
  case h_2 => exact lockstep_throw
  case h_1 tag items hsequence =>
    have hsequence' : (sides s s').plain.node place = .sequence tag items := hsequence
    rw [hsequence'] at hparts
    exact lockstep_pure h hparts

theorem lockstep_pairOf (h : Alongside s s') (hplace : Settled (sides s s') place) :
    Lockstep (pairOf place) (fun _ _ _ => True) s s' := by
  have hnode : s'.nodes.node place = s.nodes.node place := hplace.eq.symm
  refine lockstep_get (by simp only [hnode]) ?_
  split
  case h_2 => exact lockstep_throw
  case h_1 k v hpair =>
    refine lockstep_bind (lockstep_visit h k) fun _ r r' hr _ _ => ?_
    exact lockstep_bind (lockstep_visit hr v) fun _ t t' ht _ _ => lockstep_pure ht trivial

theorem lockstep_put_container (h : Alongside s s') {p : Object} (hp : s.object? place = some p)
    (hcontainer : p.isSingle = false) (ho : o.isSingle = false) (hparts : PartsMade (sides s s') s o) :
    Lockstep (put place o) (fun _ _ _ => True) s s' := by
  have hadvances : Advances s s' (s.stored place o) (s'.stored place o) := by
    refine advances_stored ?_ fun _ _ => ho
    intro v hv
    obtain rfl := Option.some.inj (hp.symm.trans hv)
    cases hcontainer
  have hput := lockstep_put h hadvances ((h.fits hp).filled hcontainer ho) hparts
  exact lockstep_imp hput fun _ _ _ _ => trivial

theorem lockstep_fill (h : Alongside s s') (hplace : Settled (sides s s') place) :
    Lockstep (fill place) (fun _ _ _ => True) s s' := by
  refine lockstep_get (by simp only [h.object?_eq hplace]) ?_
  split
  case h_1 items hlist =>
    refine lockstep_bind (lockstep_itemsOf h hplace) fun items r r' hr hadvances hitems => ?_
    have hvisits := lockstep_forM hr fun i (_ : i ∈ items) t t' ht _ =>
      lockstep_imp (lockstep_visit ht i) fun _ _ _ _ => trivial
    refine lockstep_bind hvisits fun _ t t' ht hadvances' _ => ?_
    obtain ⟨p, hp, hcontainer⟩ := (hadvances.trans hadvances').container hlist rfl
    exact lockstep_put_container ht hp hcontainer rfl fun i hi => hadvances'.settled (hitems i hi)
  case h_2 pairs hpairs =>
    refine lockstep_bind (lockstep_itemsOf h hplace) fun items r r' hr hadvances hitems => ?_
    refine lockstep_bind (lockstep_mapM hr fun i hi t t' ht hadvances' =>
      lockstep_pairOf ht (Advances.settled hadvances' (hitems i hi))) fun _ t t' ht hadvances' _ => ?_
    obtain ⟨p, hp, hcontainer⟩ := (hadvances.trans hadvances').container hpairs rfl
    exact lockstep_put_container ht hp hcontainer rfl trivial
  case h_3 entries hmap =>
    refine lockstep_bind (lockstep_entriesOf h hplace) fun es r r' hr hadvances hes => ?_
    obtain ⟨p, hp, hcontainer⟩ := hadvances.container hmap rfl
    exact lockstep_put_container hr hp hcontainer rfl hes
  case h_4 keys hset =>
    refine lockstep_bind (lockstep_entriesOf h hplace) fun es r r' hr hadvances hes => ?_
    obtain ⟨p, hp, hcontainer⟩ := hadvances.container hset rfl
    have hkeys : ∀ k ∈ es.map Prod.fst, Settled (sides r r') k := by
      intro k hk
      obtain ⟨e, he, rfl⟩ := List.mem_map.mp hk
      exact (hes e he).key
    refine lockstep_get ?_ (lockstep_put_container hr hp hcontainer rfl fun k hk =>
      hkeys k (Value.mem_of_mem_enumerated hk))
    rw [Value.enumerated_congr fun k hk => hr.singleValue_eq (hkeys k hk)]
  case h_5 => exact lockstep_pure h trivial

def started (s : Objects) : Objects :=
  { s with waiting := #[] }

theorem advances_started : Advances s s' s.started s'.started :=
  ⟨.refl _, id, fun h ho => ⟨_, h, ho⟩⟩

theorem Alongside.started (h : Alongside s s') : Alongside s.started s'.started where
  twins := h.twins
  size := h.size
  size' := h.size'
  waiting := rfl
  met := nofun
  made := h.made
  fits := h.fits
  parts hj := (h.parts hj).advances advances_started

theorem lockstep_fillAll : ∀ (fuel : Nat) {s s' : Objects}, Alongside s s' →
    Lockstep (fillAll fuel) (fun _ _ _ => True) s s'
  | 0, _, _, h => lockstep_pure h trivial
  | fuel + 1, s, s', h => by
    rw [fillAll]
    refine lockstep_get (by simp only [h.waiting]) ?_
    dsimp only
    split
    case isTrue => exact lockstep_pure h trivial
    case isFalse =>
      refine lockstep_bind (P := fun r r' _ => ∀ j ∈ s.waiting, Settled (sides r r') j)
        (Or.inr ⟨(), _, _, rfl, rfl, h.started, advances_started, h.met⟩) fun _ r r' hr _ hmet => ?_
      have hfills := lockstep_forM hr fun j hj t t' ht hadvances =>
        lockstep_fill ht (Advances.settled hadvances (hmet j (Array.mem_toList_iff.mp hj)))
      exact lockstep_bind hfills fun _ t t' ht _ _ => lockstep_fillAll fuel ht

def fresh (g : Graph) : Objects :=
  { nodes := g.nodes, made := Array.replicate g.nodes.size none }

theorem object?_fresh (g : Graph) (j : Nat) : (fresh g).object? j = none := by
  unfold object? fresh
  dsimp only
  rw [Array.getElem?_replicate]
  split <;> rfl

theorem alongside_fresh {g g' : Graph} (h : g.AreTwins g') : Alongside (fresh g) (fresh g') where
  twins := h.nodes
  size := by simp [fresh]
  size' := by
    have hsize : g'.nodes.size = g.nodes.size := h.nodes.size
    simp [fresh, hsize]
  waiting := rfl
  met := nofun
  made j := Or.inl (by rw [object?_fresh, object?_fresh])
  fits hj := by
    rw [object?_fresh] at hj
    cases hj
  parts hj := by
    rw [object?_fresh] at hj
    cases hj

theorem ofGraph_eq (g : Graph) : ofGraph g =
    ((visit g.root >>= fun _ => fillAll (g.nodes.size + 1)).run (fresh g)).map Prod.snd := by
  unfold ofGraph
  exact bind_pure_comp _ _

/-- Documents that differ in the quotes around versions fail alike, or become objects that do. -/
theorem ofGraph_twins {g g' : Graph} (h : g.AreTwins g') :
    (∃ f, ofGraph g = .error f ∧ ofGraph g' = .error f) ∨
      ∃ s s', ofGraph g = .ok s ∧ ofGraph g' = .ok s' ∧ Alongside s s' ∧
        Settled (sides s s') g.root := by
  have hsize : g'.nodes.size = g.nodes.size := h.nodes.size
  have hmake : Lockstep (visit g.root >>= fun _ => fillAll (g.nodes.size + 1)) (fun _ _ _ => True)
      (fresh g) (fresh g') :=
    lockstep_bind (lockstep_visit (alongside_fresh h) g.root) fun _ r r' hr _ _ => lockstep_fillAll _ hr
  rw [ofGraph_eq, ofGraph_eq, h.root, hsize]
  obtain ⟨f, hs, hs'⟩ | ⟨_, r, r', hs, hs', hr, hadvances, -⟩ := hmake
  · rw [hs, hs']
    exact Or.inl ⟨f, rfl, rfl⟩
  · rw [hs, hs']
    exact Or.inr ⟨r, r', rfl, rfl, hr, Advances.settled hadvances h.settled⟩

end Provision.Yaml.Objects
