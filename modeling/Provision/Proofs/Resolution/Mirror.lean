import Provision.Proofs.Resolution.Passage
import Provision.Proofs.Resolution.Reach

namespace Provision.Resolution

/-- What a run asks of the repositories. -/
inductive Question where
  | list (s : Source)
  | materialize (u : Installable)
  | describe (s : Source)

@[reducible]
def Question.Reply : Question → Type
  | .list _ => List Installable
  | .materialize _ => Contents
  | .describe _ => String

variable {σ τ α β : Type}

def Access.ask (A : Access σ) : (q : Question) → EStateM Failure σ q.Reply
  | .list s => A.list s
  | .materialize u => A.materialize u
  | .describe s => A.describe s

/-- Two results have one value or one failure, in worlds that correspond to each other. -/
def SameEnd (rel : σ → τ → Prop) (e' : EStateM.Result Failure τ α) :
    EStateM.Result Failure σ α → Prop
  | .ok a w => ∃ v, rel w v ∧ e' = .ok a v
  | .error f w => ∃ v, rel w v ∧ e' = .error f v

/-- A computation ends as another one that starts in the corresponding world, if it ends in a world
with a property; no world without the property leads to such an end. -/
structure Mirrors (P : σ → Prop) (rel : σ → τ → Prop) (x : EStateM Failure σ α)
    (y : EStateM Failure τ α) : Prop where
  back : ∀ w, P (endWorld (x w)) → P w
  same : ∀ w v, P (endWorld (x w)) → rel w v → SameEnd rel (y v) (x w)

structure Access.Mirrored (P : σ → Prop) (rel : σ → τ → Prop) (A : Access σ) (B : Access τ) :
    Prop where
  ask : ∀ q, Mirrors P rel (A.ask q) (B.ask q)
  back : ∀ m w, P (A.note m w) → P w
  note : ∀ m w v, rel w v → rel (A.note m w) (B.note m v)

/-- What a run does besides its searches comes out alike in another one, over other repositories or
in another setting. -/
structure Alike (P : σ → Prop) (rel : σ → τ → Prop) (A : Access σ) (S : Setting) (B : Access τ)
    (T : Setting) : Prop where
  back : ∀ m w, P (A.note m w) → P w
  note : ∀ m w v, rel w v → rel (A.note m w) (B.note m v)
  label : ∀ u, Mirrors P rel (A.label u) (B.label u)
  contents : ∀ u, Mirrors P rel (contents A S u) (contents B T u)

def Config.SearchesAlike (P : σ → Prop) (rel : σ → τ → Prop) (A : Access σ) (S : Setting)
    (B : Access τ) (T : Setting) (c : Config) : Prop :=
  ∀ f ∈ c.stack, ∀ r ∈ f.pending,
    Mirrors P rel (search A S r f.unit f.path) (search B T r f.unit f.path)

variable {P : σ → Prop} {rel : σ → τ → Prop}

theorem Mirrors.ok {x : EStateM Failure σ α} {y : EStateM Failure τ α} (h : Mirrors P rel x y)
    {w w' : σ} {a : α} (hx : x w = .ok a w') (hw' : P w') :
    P w ∧ ∀ v, rel w v → ∃ v', rel w' v' ∧ y v = .ok a v' := by
  have hend : P (endWorld (x w)) := by rwa [hx]
  refine ⟨h.back w hend, fun v hv => ?_⟩
  have hsame := h.same w v hend hv
  rwa [hx] at hsame

theorem Mirrors.error {x : EStateM Failure σ α} {y : EStateM Failure τ α} (h : Mirrors P rel x y)
    {w w' : σ} {f : Failure} (hx : x w = .error f w') (hw' : P w') :
    P w ∧ ∀ v, rel w v → ∃ v', rel w' v' ∧ y v = .error f v' := by
  have hend : P (endWorld (x w)) := by rwa [hx]
  refine ⟨h.back w hend, fun v hv => ?_⟩
  have hsame := h.same w v hend hv
  rwa [hx] at hsame

theorem mirrors_pure (a : α) : Mirrors P rel (pure a) (pure a) :=
  ⟨fun _ h => h, fun _ v _ h => ⟨v, h, rfl⟩⟩

theorem mirrors_throw (f : Failure) :
    Mirrors P rel (throw f : EStateM Failure σ α) (throw f) :=
  ⟨fun _ h => h, fun _ v _ h => ⟨v, h, rfl⟩⟩

theorem sameEnd_bind {x : EStateM Failure σ α} {y : EStateM Failure τ α}
    {g : α → EStateM Failure σ β} {h : α → EStateM Failure τ β} {w : σ} {v : τ}
    (hx : SameEnd rel (y v) (x w))
    (hg : ∀ a w' v', x w = .ok a w' → rel w' v' → SameEnd rel (h a v') (g a w')) :
    SameEnd rel ((y >>= h) v) ((x >>= g) w) := by
  cases hxw : x w with
  | ok a w' =>
    rw [hxw] at hx
    obtain ⟨v', hv', hy⟩ := hx
    rw [bind_of_ok hxw, bind_of_ok hy]
    exact hg a w' v' hxw hv'
  | error f w' =>
    rw [hxw] at hx
    obtain ⟨v', hv', hy⟩ := hx
    rw [bind_of_error hxw, bind_of_error hy]
    exact ⟨v', hv', rfl⟩

theorem mirrors_bind {x : EStateM Failure σ α} {y : EStateM Failure τ α}
    {g : α → EStateM Failure σ β} {h : α → EStateM Failure τ β} (hx : Mirrors P rel x y)
    (hg : ∀ a, Mirrors P rel (g a) (h a)) : Mirrors P rel (x >>= g) (y >>= h) := by
  -- The property is known of the last world only; `g` takes it back to where `x` ends.
  have hback (w : σ) (hw : P (endWorld ((x >>= g) w))) : P (endWorld (x w)) := by
    cases hxw : x w with
    | ok a w' =>
      rw [bind_of_ok hxw] at hw
      exact (hg a).back w' hw
    | error f w' => rwa [bind_of_error hxw] at hw
  refine ⟨fun w hw => hx.back w (hback w hw), fun w v hw hv => ?_⟩
  refine sameEnd_bind (hx.same w v (hback w hw) hv) fun a w' v' hxw hv' => ?_
  rw [bind_of_ok hxw] at hw
  exact (hg a).same w' v' hw hv'

theorem mirrors_forM {g : α → EStateM Failure σ PUnit} {h : α → EStateM Failure τ PUnit}
    (hg : ∀ a, Mirrors P rel (g a) (h a)) (as : List α) :
    Mirrors P rel (as.forM g) (as.forM h) := by
  induction as with
  | nil => exact mirrors_pure _
  | cons a as ih => exact mirrors_bind (hg a) fun _ => ih

theorem mirrors_foldlM {g : β → α → EStateM Failure σ β} {h : β → α → EStateM Failure τ β}
    (hg : ∀ b a, Mirrors P rel (g b a) (h b a)) (as : List α) (b : β) :
    Mirrors P rel (as.foldlM g b) (as.foldlM h b) := by
  induction as generalizing b with
  | nil => exact mirrors_pure b
  | cons a as ih =>
    rw [List.foldlM_cons, List.foldlM_cons]
    exact mirrors_bind (hg b a) ih

/-- What every answer keeps holds on all of a run, seen as the mirror of itself. -/
theorem mirrored_self {A : Access σ} {I : σ → Prop}
    (hask : ∀ q w, I w → I (endWorld (A.ask q w))) (hnote : ∀ m w, I w → I (A.note m w)) :
    A.Mirrored (fun _ => True) (fun w v => w = v ∧ I w) A where
  ask q := by
    refine ⟨fun _ _ => trivial, ?_⟩
    rintro w _ - ⟨rfl, hw⟩
    have hend := hask q w hw
    cases h : A.ask q w with
    | ok a v | error f v =>
      rw [h] at hend
      exact ⟨v, ⟨rfl, hend⟩, rfl⟩
  back _ _ _ := trivial
  note m w v h := by
    obtain ⟨rfl, hw⟩ := h
    exact ⟨rfl, hnote m w hw⟩

theorem Mirrors.keeps {x : EStateM Failure σ α} {I : σ → Prop}
    (h : Mirrors (fun _ => True) (fun w v => w = v ∧ I w) x x) {w : σ} (hw : I w) :
    I (endWorld (x w)) := by
  have hsame := h.same w w trivial ⟨rfl, hw⟩
  cases hx : x w with
  | ok a v | error f v =>
    rw [hx] at hsame
    obtain ⟨_, ⟨-, hv⟩, -⟩ := hsame
    exact hv

namespace Alike

section Steps

variable {A : Access σ} {B : Access τ} {S T : Setting} (h : Alike P rel A S B T)

include h

theorem log (level : Log.Level) (message : String) :
    Mirrors P rel (A.log level message) (B.log level message) :=
  ⟨fun _ => h.back _ _, fun _ _ _ hv => ⟨_, h.note _ _ _ hv, rfl⟩⟩

theorem debug (message : String) : Mirrors P rel (A.debug message) (B.debug message) :=
  h.log _ _

theorem addBundle (p : Progress) (b : Bundle) :
    Mirrors P rel (addBundle A p b) (addBundle B p b) := by
  unfold Resolution.addBundle
  split
  case isTrue => exact mirrors_pure _
  case isFalse => exact mirrors_bind (h.debug _) fun _ => mirrors_pure _

theorem addFeature (p : Progress) (f : Feature) :
    Mirrors P rel (addFeature A p f) (addFeature B p f) := by
  unfold Resolution.addFeature
  split
  case isTrue => exact mirrors_pure _
  case isFalse => exact mirrors_bind (h.debug _) fun _ => mirrors_pure _

theorem visit (u : Installable) (p : Progress) :
    Mirrors P rel (visit A S u p) (visit B T u p) := by
  refine mirrors_bind (mirrors_forM (fun _ => h.debug _) _) fun _ => ?_
  refine mirrors_bind (h.log _ _) fun _ => mirrors_bind (h.contents u) fun c => ?_
  refine mirrors_bind (mirrors_foldlM h.addBundle _ _) fun _ => ?_
  exact mirrors_foldlM h.addFeature _ _

theorem enter (u : Installable) (path : String) (p : Progress) (stack : List Frame) :
    Mirrors P rel (enter A S u path p stack) (enter B T u path p stack) := by
  unfold Resolution.enter
  split
  case isTrue => exact mirrors_bind (h.debug _) fun _ => mirrors_pure _
  case isFalse => exact mirrors_bind (h.visit u p) fun _ => mirrors_pure _

theorem start (u : Installable) (p : Progress) :
    Mirrors P rel (start A S u p) (start B T u p) :=
  mirrors_bind (h.label u) fun _ => h.enter u _ p []

theorem searchConfigured (hmode : S.mode = T.mode) {r : Requirement} {owner : Option Source}
    (hall : Mirrors P rel (searchAll A owner r S.repositories)
      (searchAll B owner r T.repositories)) (path : String) :
    Mirrors P rel (searchConfigured A S r owner path) (searchConfigured B T r owner path) := by
  unfold Resolution.searchConfigured
  rw [hmode]
  refine mirrors_bind hall ?_
  rintro (_ | q)
  · dsimp only
    split
    case isTrue => exact mirrors_bind (h.debug _) fun _ => mirrors_pure _
    case isFalse =>
      split
      case isTrue => exact mirrors_bind (h.debug _) fun _ => mirrors_pure _
      case isFalse => exact mirrors_throw _
  · exact mirrors_pure _

theorem step (p : Progress) (frame : Frame) (stack : List Frame)
    (hsearch : ∀ r ∈ frame.pending.head?, Mirrors P rel (search A S r frame.unit frame.path)
      (search B T r frame.unit frame.path)) :
    Mirrors P rel (step A S p frame stack) (step B T p frame stack) := by
  obtain ⟨u, path, rs⟩ := frame
  cases rs with
  | nil => exact mirrors_pure _
  | cons r rs =>
    change Mirrors P rel (settle A S r ⟨u, path, r :: rs⟩ p (⟨u, path, rs⟩ :: stack))
      (settle B T r ⟨u, path, r :: rs⟩ p (⟨u, path, rs⟩ :: stack))
    unfold settle
    split
    case isTrue => exact mirrors_bind (h.debug _) fun _ => mirrors_pure _
    case isFalse =>
      split
      case isTrue => exact mirrors_bind (h.debug _) fun _ => mirrors_pure _
      case isFalse =>
        refine mirrors_bind (h.debug _) fun _ =>
          mirrors_bind (hsearch r rfl) ?_
        rintro (q | _ | _)
        · exact mirrors_bind (h.label q) fun _ => h.enter q _ _ _
        · exact mirrors_pure _
        · exact mirrors_pure _

theorem step_of_searchesAlike {us : List Installable} {p : Progress} {frame : Frame}
    {stack : List Frame} (hsearch : Config.SearchesAlike P rel A S B T ⟨us, p, frame :: stack⟩) :
    Mirrors P rel (Resolution.step A S p frame stack) (Resolution.step B T p frame stack) :=
  h.step p frame stack fun r hr =>
    hsearch frame List.mem_cons_self r (List.mem_of_mem_head? hr)

theorem next {m n : Moment σ} (hsearch : m.SearchesAlike P rel A S B T) (hn : Next A S m n)
    (hend : P n.world) :
    P m.world ∧ ∀ v, rel m.world v → ∃ v', rel n.world v' ∧
      Next B T ⟨m.toConfig, v⟩ ⟨n.toConfig, v'⟩ := by
  cases hn with
  | root hs =>
    obtain ⟨hm, hgo⟩ := (h.start _ _).ok hs hend
    refine ⟨hm, fun v hv => ?_⟩
    obtain ⟨v', hv', hB⟩ := hgo v hv
    exact ⟨v', hv', .root hB⟩
  | step hs =>
    obtain ⟨hm, hgo⟩ := (h.step_of_searchesAlike hsearch).ok hs hend
    refine ⟨hm, fun v hv => ?_⟩
    obtain ⟨v', hv', hB⟩ := hgo v hv
    exact ⟨v', hv', .step hB⟩

theorem passes {m n : Moment σ}
    (hsearch : ∀ k, Passes A S m k → k.SearchesAlike P rel A S B T) (hn : Passes A S m n)
    (hend : P n.world) :
    P m.world ∧ ∀ v, rel m.world v → ∃ v', rel n.world v' ∧
      Passes B T ⟨m.toConfig, v⟩ ⟨n.toConfig, v'⟩ := by
  induction hn using Relation.ReflTransGen.head_induction_on with
  | refl => exact ⟨hend, fun v hv => ⟨v, hv, .refl⟩⟩
  | head hmk _ ih =>
    obtain ⟨hk, hgo⟩ := ih fun j hj => hsearch j (.head hmk hj)
    obtain ⟨hm, hnext⟩ := h.next (hsearch _ .refl) hmk hk
    refine ⟨hm, fun v hv => ?_⟩
    obtain ⟨v₁, hv₁, hB⟩ := hnext v hv
    obtain ⟨v₂, hv₂, hrest⟩ := hgo v₁ hv₁
    exact ⟨v₂, hv₂, .head hB hrest⟩

theorem stops {m : Moment σ} {f : Failure} {w : σ} (hsearch : m.SearchesAlike P rel A S B T)
    (hs : Stops A S m f w) (hend : P w) :
    P m.world ∧ ∀ v, rel m.world v → ∃ v', rel w v' ∧ Stops B T ⟨m.toConfig, v⟩ f v' := by
  cases hs with
  | root hs =>
    obtain ⟨hm, hgo⟩ := (h.start _ _).error hs hend
    refine ⟨hm, fun v hv => ?_⟩
    obtain ⟨v', hv', hB⟩ := hgo v hv
    exact ⟨v', hv', .root hB⟩
  | step hs =>
    obtain ⟨hm, hgo⟩ := (h.step_of_searchesAlike hsearch).error hs hend
    refine ⟨hm, fun v hv => ?_⟩
    obtain ⟨v', hv', hB⟩ := hgo v hv
    exact ⟨v', hv', .step hB⟩

end Steps

end Alike

theorem endWorld_probe (A : Access σ) (s : Source) (r : Requirement) (w : σ) :
    endWorld (A.probe s r w) = endWorld (A.list s w) := by
  unfold Access.probe
  cases A.list s w with
  | ok units w' => dsimp only; split <;> rfl
  | error f w' => dsimp only; split <;> rfl

/-- Catching a failure is no bind, so both ends of the question are looked at. -/
theorem sameEnd_probe {A : Access σ} {B : Access τ} {s : Source} {w : σ} {v : τ}
    (h : SameEnd rel (B.list s v) (A.list s w)) (r : Requirement) :
    SameEnd rel (B.probe s r v) (A.probe s r w) := by
  unfold Access.probe
  cases hA : A.list s w with
  | ok units w' | error f w' =>
    rw [hA] at h
    obtain ⟨v', hv', hB⟩ := h
    rw [hB]
    dsimp only
    split <;> exact ⟨v', hv', rfl⟩

section Mirrored

variable {A : Access σ} {B : Access τ} (hAB : A.Mirrored P rel B)

include hAB

theorem mirrors_log (level : Log.Level) (message : String) :
    Mirrors P rel (A.log level message) (B.log level message) :=
  ⟨fun _ => hAB.back _ _, fun _ _ _ h => ⟨_, hAB.note _ _ _ h, rfl⟩⟩

theorem mirrors_debug (message : String) : Mirrors P rel (A.debug message) (B.debug message) :=
  mirrors_log hAB _ _

theorem mirrors_describe (s : Source) : Mirrors P rel (A.describe s) (B.describe s) :=
  hAB.ask (.describe s)

theorem mirrors_reason (s : Source) (answer : Probe) :
    Mirrors P rel (A.reason s answer) (B.reason s answer) := by
  cases answer with
  | found u => exact mirrors_pure _
  | absent => exact mirrors_bind (mirrors_describe hAB s) fun _ => mirrors_pure _
  | failed f => exact mirrors_pure _

theorem mirrors_label (u : Installable) : Mirrors P rel (A.label u) (B.label u) := by
  unfold Access.label
  cases u.owner with
  | none => exact mirrors_pure _
  | some s => exact mirrors_bind (mirrors_describe hAB s) fun _ => mirrors_pure _

theorem mirrors_contents (S : Setting) (u : Installable) :
    Mirrors P rel (contents A S u) (contents B S u) := by
  have hask : Mirrors P rel (A.materialize u) (B.materialize u) := hAB.ask (.materialize u)
  have hback (w : σ) (h : P (endWorld (contents A S u w))) : P (endWorld (A.materialize u w)) := by
    unfold contents at h
    cases hA : A.materialize u w with
    | ok c w' =>
      rw [hA] at h
      exact h
    | error f w' =>
      rw [hA] at h
      dsimp only at h
      split at h
      · exact hAB.back _ _ h
      · exact h
  refine ⟨fun w hw => hask.back w (hback w hw), fun w v hw hv => ?_⟩
  have hend := hback w hw
  unfold contents
  cases hA : A.materialize u w with
  | ok c w' =>
    rw [hA] at hend
    obtain ⟨v', hv', hB⟩ := (hask.ok hA hend).2 v hv
    rw [hB]
    exact ⟨v', hv', rfl⟩
  | error f w' =>
    rw [hA] at hend
    obtain ⟨v', hv', hB⟩ := (hask.error hA hend).2 v hv
    rw [hB]
    dsimp only
    split
    · exact ⟨_, hAB.note _ _ _ hv', rfl⟩
    · exact ⟨v', hv', rfl⟩

theorem alike_of_mirrored (S : Setting) : Alike P rel A S B S where
  back := hAB.back
  note := hAB.note
  label := mirrors_label hAB
  contents := mirrors_contents hAB S

theorem mirrors_probe (s : Source) (r : Requirement) :
    Mirrors P rel (A.probe s r) (B.probe s r) := by
  have hask : Mirrors P rel (A.list s) (B.list s) := hAB.ask (.list s)
  refine ⟨fun w hw => hask.back w ?_, fun w v hw hv => sameEnd_probe (hask.same w v ?_ hv) r⟩ <;>
    rwa [endWorld_probe] at hw

theorem mirrors_searchAll (owner : Option Source) (r : Requirement) (ss : List Source) :
    Mirrors P rel (searchAll A owner r ss) (searchAll B owner r ss) := by
  induction ss with
  | nil => exact mirrors_pure _
  | cons s ss ih =>
    unfold searchAll
    split
    case isTrue => exact ih
    case isFalse =>
      refine mirrors_bind (mirrors_probe hAB s r) ?_
      rintro (q | _ | f)
      · exact mirrors_bind (mirrors_describe hAB s) fun _ =>
          mirrors_bind (mirrors_debug hAB _) fun _ => mirrors_pure _
      · exact ih
      · exact mirrors_bind (mirrors_describe hAB s) fun _ =>
          mirrors_bind (mirrors_debug hAB _) fun _ => ih

theorem mirrors_searchConfigured (S : Setting) (r : Requirement) (owner : Option Source)
    (path : String) :
    Mirrors P rel (searchConfigured A S r owner path) (searchConfigured B S r owner path) :=
  (alike_of_mirrored hAB S).searchConfigured rfl (mirrors_searchAll hAB owner r S.repositories) path

theorem mirrors_searchBeyond (S : Setting) (r : Requirement) (s : Source) (path : String)
    (answer : Probe) :
    Mirrors P rel (searchBeyond A S r s path answer) (searchBeyond B S r s path answer) := by
  unfold searchBeyond
  split
  case isTrue =>
    exact mirrors_bind (mirrors_reason hAB s answer) fun _ =>
      mirrors_bind (mirrors_debug hAB _) fun _ => mirrors_pure _
  case isFalse =>
    split
    case isTrue =>
      exact mirrors_bind (mirrors_reason hAB s answer) fun _ =>
        mirrors_bind (mirrors_debug hAB _) fun _ => mirrors_pure _
    case isFalse => exact mirrors_searchConfigured hAB S r (some s) path

theorem mirrors_search (S : Setting) (r : Requirement) (u : Installable) (path : String) :
    Mirrors P rel (search A S r u path) (search B S r u path) := by
  cases hu : u.owner with
  | none =>
    rw [search_of_ownerless hu, search_of_ownerless hu]
    exact mirrors_searchConfigured hAB S r none path
  | some s =>
    rw [search_of_owner hu, search_of_owner hu]
    refine mirrors_bind (mirrors_probe hAB s r) ?_
    rintro (q | _ | f)
    · exact mirrors_pure _
    · exact mirrors_searchBeyond hAB S r s path .absent
    · exact mirrors_searchBeyond hAB S r s path (.failed f)

variable {S : Setting}

/-- The moments of a run are those of the other. -/
theorem passes_of_mirrored {m n : Moment σ} (h : Passes A S m n) (hn : P n.world) :
    P m.world ∧ ∀ v, rel m.world v → ∃ v', rel n.world v' ∧
      Passes B S ⟨m.toConfig, v⟩ ⟨n.toConfig, v'⟩ :=
  (alike_of_mirrored hAB S).passes (fun _ _ _ _ _ _ => mirrors_search hAB S _ _ _) h hn

theorem stops_of_mirrored {m : Moment σ} {f : Failure} {w' : σ} (h : Stops A S m f w')
    (hw' : P w') :
    P m.world ∧ ∀ v, rel m.world v → ∃ v', rel w' v' ∧ Stops B S ⟨m.toConfig, v⟩ f v' :=
  (alike_of_mirrored hAB S).stops (fun _ _ _ _ => mirrors_search hAB S _ _ _) h hw'

end Mirrored

section Kept

variable {A : Access σ} {S : Setting} {I : σ → Prop}
  (hask : ∀ q w, I w → I (endWorld (A.ask q w))) (hnote : ∀ m w, I w → I (A.note m w))

include hask hnote

theorem keeps_passes {m n : Moment σ} (h : Passes A S m n) (hm : I m.world) : I n.world := by
  obtain ⟨-, hgo⟩ := passes_of_mirrored (mirrored_self hask hnote) h trivial
  obtain ⟨_, ⟨-, hn⟩, -⟩ := hgo _ ⟨rfl, hm⟩
  exact hn

theorem keeps_stops {m : Moment σ} {f : Failure} {w : σ} (h : Stops A S m f w) (hm : I m.world) :
    I w := by
  obtain ⟨-, hgo⟩ := stops_of_mirrored (mirrored_self hask hnote) h trivial
  obtain ⟨_, ⟨-, hw⟩, -⟩ := hgo _ ⟨rfl, hm⟩
  exact hw

theorem keeps_resolve {requested : List Installable} {w : σ} (hw : I w) :
    I (endWorld (resolve A S requested w)) := by
  unfold resolve
  cases he : resolveAll A S requested {} w with
  | none => exact hw
  | some e =>
    have harrive : Arrives A S [] (.start requested w) e := arrives_of_resolveAll he
    cases e with
    | ok p v => exact hnote _ _ (keeps_passes hask hnote harrive hw)
    | error f v =>
      obtain ⟨m, hm, hs⟩ := harrive
      exact keeps_stops hask hnote hs (keeps_passes hask hnote hm hw)

end Kept

end Provision.Resolution
