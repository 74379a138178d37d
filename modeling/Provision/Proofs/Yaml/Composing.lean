import Provision.Proofs.Yaml.Lockstep

namespace Provision.Yaml.Graph

variable {β : Type} {settings : Settings} {place : Place} {level depth : Nat} {p₁ p₂ : Token → Bool}
  {q : Nat → Nat → Parser β} {s s' : State} {R : State → State → β → Prop}

/-! ### Entries -/

def Front.bare : Front := ⟨none, none, false, false⟩

section Run

variable {p : Token → Bool} {t : Token} {key text : String} {isPlain isPlain' : Bool} {ts : List Token}
  {ending : Option Fault} {nodes : Nodes} {anchors : List (String × Nat)}

theorem run_node_scalar :
    (node settings place level (depth + 2)).run ⟨.scalar text isPlain :: ts, ending, nodes, anchors⟩ =
      .ok (nodes.size,
        ⟨ts, ending, nodes.push (.scalar (scalarTag settings .bare isPlain text) text), anchors⟩) := by
  rfl

theorem run_node_zero (hd : depth < 2) :
    (node settings place level depth).run ⟨.scalar text isPlain :: ts, ending, nodes, anchors⟩ =
      .error .illFormed := by
  obtain _ | _ | depth := depth
  · rfl
  · rfl
  · omega

theorem run_presentUnless {read : Parser Nat} (ht : p t = false) :
    (presentUnless p read).run ⟨t :: ts, ending, nodes, anchors⟩ =
      read.run ⟨t :: ts, ending, nodes, anchors⟩ := by
  have hsees : (sees p).run ⟨t :: ts, ending, nodes, anchors⟩ =
      .ok (p t, ⟨t :: ts, ending, nodes, anchors⟩) := by
    cases ending <;> rfl
  rw [presentUnless, StateT.run_bind, hsees, ht]
  rfl

theorem run_bind_ok {α : Type} {p : Parser α} {q : α → Parser β} {s r : State} {a : α}
    (h : p.run s = .ok (a, r)) : (p >>= q).run s = (q a).run r := by
  rw [StateT.run_bind, h]
  rfl

def entryParts (settings : Settings) (place : Place) (level depth : Nat) (p₁ p₂ : Token → Bool)
    (q : Nat → Nat → Parser β) : Parser β := do
  let k ← presentUnless p₁ (node settings place level depth)
  if ← accept isValue then
    let v ← presentUnless p₂ (node settings place level depth)
    q k v
  else
    let v ← add .absent
    q k v

theorem run_entryParts (hp₁ : p₁ (.scalar key isPlain) = false)
    (hp₂ : p₂ (.scalar text isPlain') = false) :
    (entryParts settings place level (depth + 2) p₁ p₂ q).run
        ⟨.scalar key isPlain :: .value :: .scalar text isPlain' :: ts, ending, nodes, anchors⟩ =
      (q nodes.size (nodes.size + 1)).run ⟨ts, ending,
        (nodes.push (.scalar (scalarTag settings .bare isPlain key) key)).push
          (.scalar (scalarTag settings .bare isPlain' text) text), anchors⟩ := by
  have haccept (nodes : Nodes) :
      (accept isValue).run ⟨.value :: .scalar text isPlain' :: ts, ending, nodes, anchors⟩ =
        .ok (true, ⟨.scalar text isPlain' :: ts, ending, nodes, anchors⟩) := by
    cases ending <;> rfl
  refine (run_bind_ok ((run_presentUnless hp₁).trans run_node_scalar)).trans ?_
  refine (run_bind_ok (haccept _)).trans ?_
  refine (run_bind_ok ((run_presentUnless hp₂).trans run_node_scalar)).trans ?_
  rw [Array.size_push]

end Run

theorem scalarTag_versionKey {key : String} (hfloats : settings.floats = false)
    (hkey : Manifest.IsVersionKey key) (isPlain : Bool) :
    scalarTag settings .bare isPlain key = .text := by
  unfold scalarTag
  rw [hfloats]
  obtain rfl | rfl := hkey <;> cases isPlain <;> decide

theorem lockstep_versionParts {key text : String} {isPlain : Bool} {ts us : List Token}
    {ending : Option Fault} {nodes nodes' : Nodes} {anchors : List (String × Nat)}
    (h : Paired ⟨ts, ending, nodes, anchors⟩ ⟨us, ending, nodes', anchors⟩)
    (hkey : Manifest.IsVersionKey key) (ht : IsKept text) (hfloats : settings.floats = false)
    (hp₁ : p₁ (.scalar key isPlain) = false) (hp₂ : ∀ b, p₂ (.scalar text b) = false)
    (hq : ∀ k v r r', Paired r r' → Grows ⟨nodes, nodes'⟩ (pairOf r r') →
      SettledEntry (pairOf r r') (k, v) → Lockstep (q k v) R r r') :
    Lockstep (entryParts settings place level depth p₁ p₂ q) R
      ⟨.scalar key isPlain :: .value :: .scalar text true :: ts, ending, nodes, anchors⟩
      ⟨.scalar key isPlain :: .value :: .scalar text false :: us, ending, nodes', anchors⟩ := by
  -- The key and the value take one depth each, so with less than two both readings fail.
  by_cases hdepth : depth < 2
  case pos =>
    have hfails (isPlain' : Bool) (ts : List Token) (nodes : Nodes) :
        (entryParts settings place level depth p₁ p₂ q).run
          ⟨.scalar key isPlain :: .value :: .scalar text isPlain' :: ts, ending, nodes, anchors⟩ =
            .error .illFormed := by
      rw [entryParts, StateT.run_bind, run_presentUnless hp₁, run_node_zero hdepth]
      rfl
    exact Or.inl ⟨.illFormed, hfails true ts nodes, hfails false us nodes'⟩
  case neg =>
    obtain ⟨depth, rfl⟩ := Nat.exists_eq_add_of_le' (Nat.le_of_not_lt hdepth)
    have hsize : nodes'.size = nodes.size := h.twins.size
    have hkeyTag (isPlain : Bool) := scalarTag_versionKey hfloats hkey isPlain
    have htextTag : scalarTag settings .bare true text = Tag.ofPlain false text := hfloats ▸ rfl
    have hrun (isPlain' : Bool) {ts : List Token} {nodes : Nodes} :=
      @run_entryParts _ settings place level depth p₁ p₂ q key text isPlain isPlain' ts ending nodes
        anchors hp₁ (hp₂ isPlain')
    have hplain := @hrun true ts nodes
    have hquoted := @hrun false us nodes'
    rw [hkeyTag, htextTag] at hplain
    rw [hkeyTag, hsize] at hquoted
    have hkeyed : Twins ((⟨nodes, nodes'⟩ : NodePair).push (.scalar .text key) (.scalar .text key)) :=
      h.twins.push (.same _) trivial
    have hgrows₁ := h.twins.grows_push (.scalar .text key) (.scalar .text key)
    have hgrows₂ := hkeyed.grows_push (.scalar (Tag.ofPlain false text) text) (.scalar .text text)
    have hgrows := hgrows₁.trans hgrows₂
    refine lockstep_of_run hplain hquoted hgrows
      (hq _ _ _ _ ⟨h.tokens, rfl, rfl, ?_, ?_⟩ hgrows ⟨?_, Or.inr ⟨key, hkey, ?_⟩⟩)
    · exact hkeyed.push (requoted_scalar ht) trivial
    · exact fun a ha => hgrows.settled (h.anchored a ha)
    · exact hgrows₂.settled (h.twins.settled_push _)
    · exact hgrows₂.text ((node_push nodes _ _).trans (if_pos rfl))

theorem lockstep_entryParts (h : Paired s s') (hhead : s.tokens.head? = some .key)
    (hfloats : settings.floats = false) (hp₁ : ∀ t b, p₁ (.scalar t b) = false)
    (hp₂ : ∀ t b, p₂ (.scalar t b) = false)
    (hnode : ∀ {r r'}, Paired r r' → Lockstep (node settings place level depth) IsNode r r')
    (hq : ∀ k v r r', Paired r r' → Grows (pairOf s s') (pairOf r r') →
      SettledEntry (pairOf r r') (k, v) → Lockstep (q k v) R r r') :
    Lockstep (entryParts settings place level depth p₁ p₂ q) R s.dropped s'.dropped := by
  obtain ⟨tokens, ending, nodes, anchors⟩ := s
  obtain ⟨tokens', ending', nodes', anchors'⟩ := s'
  obtain ⟨htokens, rfl, rfl, htwins, hanchored⟩ := h
  cases htokens with
  | nil => cases hhead
  | cons t htokens =>
    have hr : Paired ⟨_, ending', nodes, anchors'⟩ ⟨_, ending', nodes', anchors'⟩ :=
      ⟨htokens, rfl, rfl, htwins, hanchored⟩
    refine lockstep_bind (lockstep_presentUnless hr (hnode hr)) fun k r r' hr hgrows hk => ?_
    have hsecond {read : Parser Nat} {r₁ r₁' : State} (hr₁ : Lockstep read IsNode r₁ r₁')
        (hgrows₁ : Grows (pairOf r r') (pairOf r₁ r₁')) :
        Lockstep (read >>= fun v => q k v) R r₁ r₁' := by
      refine lockstep_bind hr₁ fun v t t' ht hgrows₂ hv => ?_
      have hgrows' := hgrows₁.trans hgrows₂
      exact hq k v t t' ht (hgrows.trans hgrows') ⟨hgrows'.settled hk, Or.inl hv⟩
    refine lockstep_accept hr (by decide) (hsecond (lockstep_absent hr) (.refl _)) fun hdropped => ?_
    exact hsecond (lockstep_presentUnless hdropped (hnode hdropped)) (.refl _)
  | version hkey ht htokens =>
    exact lockstep_versionParts ⟨htokens, rfl, rfl, htwins, hanchored⟩ hkey ht hfloats (hp₁ _ _) (hp₂ _) hq

/-! ### Collections -/

abbrev AreItems (r r' : State) (is : List Nat) : Prop := ∀ i ∈ is, Settled (pairOf r r') i

abbrev AreEntries (r r' : State) (es : List (Nat × Nat)) : Prop := ∀ e ∈ es, SettledEntry (pairOf r r') e

/-- What is read in parts so deep is read in lockstep. -/
structure Lockstepped (settings : Settings) (depth : Nat) : Prop where
  node (place : Place) (level : Nat) {s s' : State} (h : Paired s s') :
    Lockstep (node settings place level depth) IsNode s s'
  content (place : Place) (level : Nat) (f : Front) {s s' : State} (h : Paired s s') :
    Lockstep (content settings place level f depth) IsNode s s'
  blockItems (level : Nat) {s s' : State} (h : Paired s s') :
    Lockstep (blockItems settings level depth) AreItems s s'
  bareItems (level : Nat) {s s' : State} (h : Paired s s') :
    Lockstep (bareItems settings level depth) AreItems s s'
  blockEntries (level : Nat) {s s' : State} (h : Paired s s') :
    Lockstep (blockEntries settings level depth) AreEntries s s'
  flowItems (isFirst : Bool) (level : Nat) {s s' : State} (h : Paired s s') :
    Lockstep (flowItems settings isFirst level depth) AreItems s s'
  flowEntries (isFirst : Bool) (level : Nat) {s s' : State} (h : Paired s s') :
    Lockstep (flowEntries settings isFirst level depth) AreEntries s s'

theorem lockstep_node (ih : Lockstepped settings depth) (h : Paired s s') :
    Lockstep (node settings place level (depth + 1)) IsNode s s' := by
  rw [node]
  refine lockstep_peek? h fun t ht => ?_
  split
  case h_1 name => exact lockstep_drop (lockstep_aliased (h.behind ht rfl))
  case h_2 =>
    refine lockstep_bind (steady_front h) fun f r r' hr _ _ => ?_
    exact ih.content place level f hr

theorem lockstep_content {f : Front} (ih : Lockstepped settings depth) (h : Paired s s') :
    Lockstep (content settings place level f (depth + 1)) IsNode s s' := by
  rw [content]
  refine lockstep_peek? h fun t ht => ?_
  split
  case h_1 text isPlain =>
    refine lockstep_drop (lockstep_imp (lockstep_addAnchored (h.behind ht rfl) trivial) ?_)
    exact fun _ _ _ hadded => hadded.settled
  case h_2 =>
    refine lockstep_collection h (fun _ => rfl) (fun _ => nofun) fun r r' hr htokens => ?_
    exact lockstep_drop (ih.flowItems true (level + 1) (hr.behind (htokens ▸ ht) rfl))
  case h_3 =>
    refine lockstep_collection h (fun _ => rfl) (fun _ => nofun) fun r r' hr htokens => ?_
    exact lockstep_drop (ih.flowEntries true (level + 1) (hr.behind (htokens ▸ ht) rfl))
  case h_4 =>
    split
    · refine lockstep_collection h (fun _ => rfl) (fun _ => nofun) fun r r' hr _ => ?_
      exact ih.bareItems (level + 1) hr
    · exact lockstep_leftOut h
  case h_5 =>
    split
    · exact lockstep_leftOut h
    · refine lockstep_collection h (fun _ => rfl) (fun _ => nofun) fun r r' hr htokens => ?_
      exact lockstep_drop (ih.blockItems (level + 1) (hr.behind (htokens ▸ ht) rfl))
  case h_6 =>
    split
    · exact lockstep_leftOut h
    · refine lockstep_collection h (fun _ => rfl) (fun _ => nofun) fun r r' hr htokens => ?_
      exact lockstep_drop (ih.blockEntries (level + 1) (hr.behind (htokens ▸ ht) rfl))
  case h_7 => exact lockstep_leftOut h

theorem lockstep_cons {α : Type} {Q : State → State → α → Prop} {Qs : State → State → List α → Prop}
    {p : Parser α} {rest : Parser (List α)} (hp : Lockstep p Q s s')
    (hrest : ∀ {r r'}, Paired r r' → Lockstep rest Qs r r')
    (hcons : ∀ {r r' t t' a as}, Q r r' a → Grows (pairOf r r') (pairOf t t') → Qs t t' as →
      Qs t t' (a :: as)) :
    Lockstep (p >>= fun a => rest >>= fun as => pure (a :: as)) Qs s s' := by
  refine lockstep_bind hp fun a r r' hr _ ha => ?_
  refine lockstep_bind (hrest hr) fun as t t' ht hgrows has => ?_
  exact lockstep_pure ht (hcons ha hgrows has)

theorem lockstep_items {p : Parser Nat} {rest : Parser (List Nat)} (hp : Lockstep p IsNode s s')
    (hrest : ∀ {r r'}, Paired r r' → Lockstep rest AreItems r r') :
    Lockstep (p >>= fun n => rest >>= fun ns => pure (n :: ns)) AreItems s s' :=
  lockstep_cons hp hrest fun ha hgrows has => List.forall_mem_cons.mpr ⟨hgrows.settled ha, has⟩

theorem lockstep_acceptKey {q : Bool → Parser β} (h : Paired s s') (hfalse : Lockstep (q false) R s s')
    (htrue : s.tokens.head? = some .key → Lockstep (q true) R s.dropped s'.dropped) :
    Lockstep (accept isKey >>= q) R s s' := by
  rw [accept, bind_assoc]
  refine lockstep_peek? h fun t ht => ?_
  subst ht
  cases hfound : s.tokens.head?.any isKey with
  | false => exact hfalse
  | true =>
    obtain ⟨t, ht, hkey⟩ := Option.any_eq_true _ _ |>.mp hfound
    exact htrue (eq_key_of_isKey hkey ▸ ht)

theorem lockstep_blockItems (ih : Lockstepped settings depth) (h : Paired s s') :
    Lockstep (blockItems settings level (depth + 1)) AreItems s s' := by
  rw [blockItems]
  refine lockstep_accept h (by decide) ?_ fun hs => ?_
  · refine lockstep_accept h (by decide) lockstep_throw fun hs => ?_
    exact lockstep_pure hs nofun
  · exact lockstep_items (lockstep_presentUnless hs (ih.node .inBlock level hs)) (ih.blockItems level)

theorem lockstep_bareItems (ih : Lockstepped settings depth) (h : Paired s s') :
    Lockstep (bareItems settings level (depth + 1)) AreItems s s' := by
  rw [bareItems]
  refine lockstep_accept h (by decide) (lockstep_pure h nofun) fun hs => ?_
  exact lockstep_items (lockstep_presentUnless hs (ih.node .inBlock level hs)) (ih.bareItems level)

theorem lockstep_entry {rest : Parser (List (Nat × Nat))} (h : Paired s s')
    (hhead : s.tokens.head? = some .key) (hfloats : settings.floats = false)
    (ih : Lockstepped settings depth) (hp₁ : ∀ t b, p₁ (.scalar t b) = false)
    (hp₂ : ∀ t b, p₂ (.scalar t b) = false)
    (hrest : ∀ {r r'}, Paired r r' → Lockstep rest AreEntries r r') :
    Lockstep (entryParts settings place level depth p₁ p₂ fun k v => do return (k, v) :: (← rest))
      AreEntries s.dropped s'.dropped := by
  refine lockstep_entryParts h hhead hfloats hp₁ hp₂ (ih.node place level) fun k v r r' hr _ he => ?_
  refine lockstep_bind (hrest hr) fun es t t' ht hgrows hes => ?_
  exact lockstep_pure ht (List.forall_mem_cons.mpr ⟨he.grows hgrows, hes⟩)

theorem lockstep_blockEntries (hfloats : settings.floats = false) (ih : Lockstepped settings depth)
    (h : Paired s s') : Lockstep (blockEntries settings level (depth + 1)) AreEntries s s' := by
  rw [blockEntries]
  refine lockstep_acceptKey h ?_ fun hhead => ?_
  · refine lockstep_accept h (by decide) lockstep_throw fun hs => ?_
    exact lockstep_pure hs nofun
  · exact lockstep_entry h hhead hfloats ih (fun _ _ => rfl) (fun _ _ => rfl) (ih.blockEntries level)

theorem lockstep_separated {isFirst : Bool} {rest : Unit → Parser β} (h : Paired s s')
    (hrest : ∀ {r r'}, Paired r r' → Lockstep (rest ()) R r r') :
    Lockstep (if (!isFirst) = true then
        accept isFlowEntry >>= fun found => if (!found) = true then fail >>= rest else rest ()
      else rest ()) R s s' := by
  cases isFirst with
  | true => exact hrest h
  | false => exact lockstep_accept h (by decide) lockstep_throw_bind hrest

theorem lockstep_flowItems {isFirst : Bool} (hfloats : settings.floats = false)
    (ih : Lockstepped settings depth) (h : Paired s s') :
    Lockstep (flowItems settings isFirst level (depth + 1)) AreItems s s' := by
  rw [flowItems]
  refine lockstep_accept h (by decide) ?_ fun hs => lockstep_pure hs nofun
  rw [if_neg Bool.false_ne_true]
  refine lockstep_separated h fun {s s'} h => ?_
  refine lockstep_sees h fun b hb => ?_
  split
  case isTrue hkey =>
    subst hkey
    obtain ⟨t, ht, hkey⟩ := Option.any_eq_true _ _ |>.mp hb
    obtain rfl := eq_key_of_isKey hkey
    refine lockstep_items ?_ (ih.flowItems false level)
    refine lockstep_collection h (fun _ => rfl) (fun _ => nofun) fun r r' hr htokens => ?_
    refine lockstep_drop ?_
    refine lockstep_entryParts hr (htokens ▸ ht) hfloats (fun _ _ => rfl) (fun _ _ => rfl)
      (ih.node .inFlow (level + 1)) fun k v t t' ht _ he => ?_
    exact lockstep_pure ht (List.forall_mem_singleton.mpr he)
  case isFalse =>
    refine lockstep_accept h (by decide) ?_ fun hs => lockstep_pure hs nofun
    exact lockstep_items (ih.node .inFlow level h) (ih.flowItems false level)

theorem lockstep_flowEntries {isFirst : Bool} (hfloats : settings.floats = false)
    (ih : Lockstepped settings depth) (h : Paired s s') :
    Lockstep (flowEntries settings isFirst level (depth + 1)) AreEntries s s' := by
  rw [flowEntries]
  refine lockstep_accept h (by decide) ?_ fun hs => lockstep_pure hs nofun
  rw [if_neg Bool.false_ne_true]
  refine lockstep_separated h fun {s s'} h => ?_
  refine lockstep_acceptKey h ?_ fun hhead => ?_
  · refine lockstep_accept h (by decide) ?_ fun hs => lockstep_pure hs nofun
    refine lockstep_bind (ih.node .inFlow level h) fun k r r' hr _ hk => ?_
    refine lockstep_bind (lockstep_absent hr) fun v t t' ht hgrows hv => ?_
    refine lockstep_bind (ih.flowEntries false level ht) fun es u u' hu hgrows' hes => ?_
    refine lockstep_pure hu (List.forall_mem_cons.mpr ⟨?_, hes⟩)
    exact ⟨hgrows'.settled (hgrows.settled hk), Or.inl (hgrows'.settled hv)⟩
  · exact lockstep_entry h hhead hfloats ih (fun _ _ => rfl) (fun _ _ => rfl) (ih.flowEntries false level)

theorem lockstepped (hfloats : settings.floats = false) : ∀ depth, Lockstepped settings depth
  | 0 =>
    { node := fun _ _ _ _ _ => lockstep_throw
      content := fun _ _ _ _ _ _ => lockstep_throw
      blockItems := fun _ _ _ _ => lockstep_throw
      bareItems := fun _ _ _ _ => lockstep_throw
      blockEntries := fun _ _ _ _ => lockstep_throw
      flowItems := fun _ _ _ _ _ => lockstep_throw
      flowEntries := fun _ _ _ _ _ => lockstep_throw }
  | depth + 1 =>
    have ih := lockstepped hfloats depth
    { node := fun _ _ _ _ h => lockstep_node ih h
      content := fun _ _ _ _ _ h => lockstep_content ih h
      blockItems := fun _ _ _ h => lockstep_blockItems ih h
      bareItems := fun _ _ _ h => lockstep_bareItems ih h
      blockEntries := fun _ _ _ h => lockstep_blockEntries hfloats ih h
      flowItems := fun _ _ _ _ h => lockstep_flowItems hfloats ih h
      flowEntries := fun _ _ _ _ h => lockstep_flowEntries hfloats ih h }

/-! ### Documents -/

theorem steady_directives : ∀ (fuel : Nat) (hasVersion : Bool) (handles : Handles) {s s' : State},
    Paired s s' → Steady (directives fuel hasVersion handles) s s'
  | 0, _, _, _, _, _ => lockstep_throw
  | fuel + 1, hasVersion, handles, s, s', h => by
    rw [directives]
    refine lockstep_peek? h fun t ht => ?_
    split
    case h_1 major =>
      refine lockstep_drop ?_
      split
      · exact lockstep_throw_bind
      · exact steady_directives fuel true handles (h.behind ht rfl)
    case h_2 handle start =>
      refine lockstep_drop ?_
      split
      · exact lockstep_throw_bind
      · exact steady_directives fuel hasVersion _ (h.behind ht rfl)
    case h_3 => exact lockstep_drop (steady_directives fuel hasVersion handles (h.behind ht rfl))
    case h_4 => exact lockstep_pure h trivial

theorem steady_skipEnds : ∀ (fuel : Nat) {s s' : State}, Paired s s' → Steady (skipEnds fuel) s s'
  | 0, _, _, h => lockstep_pure h trivial
  | fuel + 1, _, _, h => by
    rw [skipEnds]
    exact lockstep_accept h (by decide) (lockstep_pure h trivial) (steady_skipEnds fuel)

theorem steady_opening {size : Nat} (h : Paired s s') : Steady (opening size) s s' := by
  refine lockstep_bind (steady_directives _ _ _ h) fun handles r r' hr _ _ => ?_
  refine lockstep_accept hr (by decide) lockstep_throw_bind fun hs => lockstep_pure hs trivial

theorem steady_ending {size : Nat} (h : Paired s s') : Steady (ending size) s s' := by
  refine lockstep_bind (steady_skipEnds size h) fun _ r r' hr _ _ => ?_
  refine lockstep_peek? hr fun t _ => ?_
  split
  · exact lockstep_bind (steady_opening hr) fun _ _ _ _ _ _ => lockstep_throw
  · exact lockstep_pure hr trivial

def IsRoot (r r' : State) (root : Option Nat) : Prop :=
  ∀ i ∈ root, Settled (pairOf r r') i

theorem lockstep_rooted {size : Nat} {read : Parser Nat} (hread : Lockstep read IsNode s s') :
    Lockstep (read >>= fun root => ending size >>= fun _ => pure (some root)) IsRoot s s' := by
  refine lockstep_bind hread fun root r r' hr _ hroot => ?_
  refine lockstep_bind (steady_ending hr) fun _ t t' ht hgrows _ => lockstep_pure ht ?_
  rintro i ⟨⟩
  exact hgrows.settled hroot

theorem lockstep_document (size : Nat) (h : Paired s s') :
    Lockstep (document false size) IsRoot s s' := by
  have hnode {handles : Handles} {s s' : State} (h : Paired s s') :
      Lockstep (node ⟨false, handles⟩ .inBlock 0 (4 * size + 8)) IsNode s s' :=
    (lockstepped rfl _).node .inBlock 0 h
  refine lockstep_peek? h fun t ht => ?_
  split
  case isTrue => exact lockstep_pure h nofun
  case isFalse =>
    refine lockstep_sees h fun b _ => ?_
    split
    case isTrue =>
      refine lockstep_bind (steady_opening h) fun handles r r' hr _ _ => ?_
      refine lockstep_peek? hr fun t _ => ?_
      dsimp only
      split
      · exact lockstep_rooted (lockstep_absent hr)
      · exact lockstep_rooted (hnode hr)
    case isFalse => exact lockstep_rooted (hnode h)

/-- Two graphs have one root and nodes that differ in the quotes around versions. -/
structure AreTwins (g g' : Graph) : Prop where
  root : g'.root = g.root
  nodes : Twins ⟨g.nodes, g'.nodes⟩
  settled : Settled ⟨g.nodes, g'.nodes⟩ g.root

/-- Texts whose tokens differ in the quotes around versions fail alike, or have such nodes. -/
theorem ofStream_requoted {text text' : Stream}
    (h : Requoted (Tokens.ofStream text).settled (Tokens.ofStream text').settled)
    (hending : (Tokens.ofStream text').ending = (Tokens.ofStream text).ending) :
    (∃ f, ofStream false text = .error f ∧ ofStream false text' = .error f) ∨
      (ofStream false text = .ok none ∧ ofStream false text' = .ok none) ∨
      ∃ g g', ofStream false text = .ok (some g) ∧ ofStream false text' = .ok (some g') ∧
        AreTwins g g' := by
  have hstart :
      Paired { tokens := (Tokens.ofStream text).settled, ending := (Tokens.ofStream text).ending }
        { tokens := (Tokens.ofStream text').settled, ending := (Tokens.ofStream text').ending } :=
    ⟨h, hending, rfl, ⟨rfl, fun _ => .same _, fun _ => trivial⟩, nofun⟩
  unfold ofStream
  dsimp only
  rw [h.length_eq]
  obtain ⟨f, hs, hs'⟩ | ⟨root, r, r', hs, hs', hr, -, hroot⟩ :=
    lockstep_document (Tokens.ofStream text).settled.length hstart
  · rw [hs, hs']
    exact Or.inl ⟨f, rfl, rfl⟩
  · rw [hs, hs']
    cases root with
    | none => exact Or.inr (Or.inl ⟨rfl, rfl⟩)
    | some root => exact Or.inr (Or.inr ⟨_, _, rfl, rfl, rfl, hr.twins, hroot root rfl⟩)

end Provision.Yaml.Graph
