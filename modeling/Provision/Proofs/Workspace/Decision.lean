import Provision.Proofs.Resolution.Probing
import Provision.Proofs.Workspace.Requests

namespace Provision

open Provision.Resolution Provision.Operation

namespace Workspace

variable {w₀ w : Workspace} {α β : Type} {r : Requirement} {s : Source} {q : Installable}

def Ends (w₀ : Workspace) (x : EStateM Failure (Workspace × List Call) α) (ss : List Source)
    (e : Except Failure α) : Prop :=
  ∀ v : Workspace × List Call, w₀.Serves v.1 → answerOf (x v) = e ∧
    w₀.Serves (endWorld (x v)).1 ∧ probed (endWorld (x v)).2 = probed v.2 ++ ss

theorem ends_pure (a : α) : w₀.Ends (pure a) [] (.ok a) :=
  fun _ hv => ⟨rfl, hv, (List.append_nil _).symm⟩

theorem ends_throw (f : Failure) :
    w₀.Ends (throw f : EStateM Failure (Workspace × List Call) α) [] (.error f) :=
  fun _ hv => ⟨rfl, hv, (List.append_nil _).symm⟩

theorem ends_bind {x : EStateM Failure (Workspace × List Call) α}
    {g : α → EStateM Failure (Workspace × List Call) β} {a : α} {ss ts : List Source}
    {e : Except Failure β} (hx : w₀.Ends x ss (.ok a)) (hg : w₀.Ends (g a) ts e) :
    w₀.Ends (x >>= g) (ss ++ ts) e := by
  intro v hv
  obtain ⟨hok, hserves, hss⟩ := hx v hv
  obtain ⟨v', hok⟩ := exists_of_answerOf_eq_ok hok
  rw [hok] at hserves hss
  obtain ⟨he, hserves, hts⟩ := hg v' hserves
  rw [bind_of_ok hok]
  refine ⟨he, hserves, ?_⟩
  rw [hts, ← List.append_assoc, ← hss]
  rfl

theorem ends_bind_last {x : EStateM Failure (Workspace × List Call) α}
    {g : α → EStateM Failure (Workspace × List Call) β} {a : α} {ss : List Source}
    {e : Except Failure β} (hx : w₀.Ends x ss (.ok a)) (hg : w₀.Ends (g a) [] e) :
    w₀.Ends (x >>= g) ss e :=
  List.append_nil ss ▸ ends_bind hx hg

theorem ends_bind_quiet {x : EStateM Failure (Workspace × List Call) α}
    {g : α → EStateM Failure (Workspace × List Call) β} {a : α} {ts : List Source}
    {e : Except Failure β} (hx : w₀.Ends x [] (.ok a)) (hg : w₀.Ends (g a) ts e) :
    w₀.Ends (x >>= g) ts e :=
  ends_bind hx hg

theorem ends_debug (message : String) : w₀.Ends (access.recorded.debug message) [] (.ok ()) :=
  fun v hv => ⟨rfl, (lasting_serves w₀).note _ v.1 hv, (List.append_nil _).symm⟩

theorem ends_describe (s : Source) :
    w₀.Ends (access.recorded.describe s) [] (.ok (w₀.naming s)) := by
  rintro ⟨v, cs⟩ hv
  have hdescribe : access.recorded.describe s (v, cs) =
      .ok (w₀.naming s) (v, cs ++ [⟨.describe s, .ok (w₀.naming s)⟩]) := by
    have hname : access.describe s v = .ok (w₀.naming s) v := hv.toResembles.describe s
    simp only [Access.recorded, record, hname]
  rw [hdescribe]
  refine ⟨rfl, hv, ?_⟩
  simp [endWorld, probed, Question.probed?]

theorem ends_reason (w₀ : Workspace) (s : Source) (answer : Probe) :
    ∃ text, w₀.Ends (access.recorded.reason s answer) [] (.ok text) := by
  cases answer with
  | found u => exact ⟨_, ends_pure _⟩
  | absent => exact ⟨_, ends_bind_quiet (ends_describe s) (ends_pure _)⟩
  | failed f => exact ⟨_, ends_pure _⟩

/-! ### Probes -/

def answer (w : Workspace) (s : Source) (r : Requirement) : Probe :=
  match w.units? s with
  | none => .failed (.offline (w.naming s))
  | some us =>
    match us.find? (·.satisfies r) with
    | some q => .found q
    | none => .absent

theorem ends_probe (s : Source) (r : Requirement) :
    w₀.Ends (access.recorded.probe s r) [s] (.ok (w₀.answer s r)) := by
  rintro ⟨v, cs⟩ hv
  have hlist := hv.list s
  obtain ⟨v', hv', hlist⟩ := hlist
  have hrecorded : access.recorded.list s = record (.list s) (Operation.list s) := rfl
  rw [Access.probe, answer, hrecorded, record]
  dsimp only
  cases hunits : w₀.units? s with
  | none =>
    rw [hunits] at hlist
    rw [hlist]
    refine ⟨rfl, hv', ?_⟩
    simp [endWorld, probed, Question.probed?, Failure.isMissing, Failure.kind, Failure.quotes,
      Failure.kindAsSaid]
  | some us =>
    rw [hunits] at hlist
    rw [hlist]
    dsimp only
    cases us.find? (·.satisfies r) with
    | some q =>
      refine ⟨rfl, hv', ?_⟩
      simp [endWorld, probed, Question.probed?]
    | none =>
      refine ⟨rfl, hv', ?_⟩
      simp [endWorld, probed, Question.probed?]

/-- A repository can be read and has a unit for a requirement. -/
def Provides (w : Workspace) (r : Requirement) : Source → Prop :=
  w.Has fun q => q.satisfies r

theorem answer_of_provides (h : w.Provides r s) : ∃ us front q, w.units? s = some us ∧
    FirstOf (fun q => q.satisfies r) us front q ∧ w.answer s r = .found q := by
  obtain ⟨us, hus, u, hu, hr⟩ := h
  obtain ⟨q, hq⟩ : ∃ q, us.find? (·.satisfies r) = some q :=
    Option.isSome_iff_exists.mp (List.find?_isSome.mpr ⟨u, hu, hr⟩)
  obtain ⟨front, hfirst⟩ := FirstOf.exists_iff_find?.mpr hq
  refine ⟨us, front, q, hus, hfirst, ?_⟩
  rw [answer, hus]
  dsimp only
  rw [hq]

theorem answer_of_not_provides (h : ¬w.Provides r s) :
    w.answer s r = .absent ∨ ∃ f, w.answer s r = .failed f := by
  unfold answer
  cases hunits : w.units? s with
  | none => exact Or.inr ⟨_, rfl⟩
  | some us =>
    refine Or.inl ?_
    have hnone : us.find? (·.satisfies r) = none :=
      List.find?_eq_none.mpr fun q hq hr => h ⟨us, hunits, q, hq, hr⟩
    dsimp only
    rw [hnone]

/-! ### Searches -/

theorem ends_searchAll_cons {owner : Option Source} {ts ss : List Source} {t : Source}
    {e : Except Failure (Option Installable)} (ht : owner.any t.same = false)
    (hnot : ¬w₀.Provides r t) (h : w₀.Ends (searchAll access.recorded owner r ts) ss e) :
    w₀.Ends (searchAll access.recorded owner r (t :: ts)) (t :: ss) e := by
  rw [searchAll, if_neg (Bool.eq_false_iff.mp ht)]
  refine ends_bind (ends_probe t r) ?_
  obtain ha | ⟨f, ha⟩ := answer_of_not_provides hnot <;> rw [ha]
  · exact h
  · exact ends_bind_quiet (ends_describe t) (ends_bind_quiet (ends_debug _) h)

/-- All repositories but the owner are probed where none of them has a unit. -/
theorem ends_searchAll_none {owner : Option Source} {ts : List Source}
    (h : ∀ s ∈ ts.filter fun t => !owner.any t.same, ¬w₀.Provides r s) :
    w₀.Ends (searchAll access.recorded owner r ts) (ts.filter fun t => !owner.any t.same)
      (.ok none) := by
  induction ts with
  | nil => exact ends_pure none
  | cons t ts ih =>
    cases ht : owner.any t.same with
    | true =>
      rw [List.filter_cons_of_neg (by simp [ht])] at h ⊢
      rw [searchAll, if_pos ht]
      exact ih h
    | false =>
      rw [List.filter_cons_of_pos (by simp [ht])] at h ⊢
      obtain ⟨hnot, h⟩ := List.forall_mem_cons.mp h
      exact ends_searchAll_cons ht hnot (ih h)

/-- Of all repositories but the owner those up to the first one that has a unit are probed. -/
theorem ends_searchAll_some {owner : Option Source} {ts before : List Source}
    (h : FirstOf (w₀.Provides r) (ts.filter fun t => !owner.any t.same) before s)
    (hq : w₀.answer s r = .found q) :
    w₀.Ends (searchAll access.recorded owner r ts) (before ++ [s]) (.ok (some q)) := by
  induction ts generalizing before with
  | nil => cases h.mem
  | cons t ts ih =>
    cases ht : owner.any t.same with
    | true =>
      rw [List.filter_cons_of_neg (by simp [ht])] at h
      rw [searchAll, if_pos ht]
      exact ih h
    | false =>
      rw [List.filter_cons_of_pos (by simp [ht])] at h
      obtain ⟨rfl, rfl⟩ | ⟨before, rfl, hnot, h⟩ := h.of_cons
      · rw [searchAll, if_neg (Bool.eq_false_iff.mp ht)]
        refine ends_bind_last (ends_probe t r) ?_
        rw [hq]
        exact ends_bind_quiet (ends_describe t) (ends_bind_quiet (ends_debug _) (ends_pure _))
      · exact ends_searchAll_cons ht hnot (ih h)

def unmet (S : Setting) (r : Requirement) (u : Installable) (path : String) :
    Except Failure Outcome :=
  if S.mode = .full ∧ r.optional = false then .error (.unresolved path r)
  else if S.mode = .slice ∧ (u.owner ≠ none ∨ r.optional = false) then .ok .failed
  else .ok .dropped

variable {S : Setting} {u : Installable} {path : String}

theorem unmet_unresolved (hS : S.mode = .full) (hr : r.optional = false) :
    unmet S r u path = .error (.unresolved path r) :=
  if_pos ⟨hS, hr⟩

theorem unmet_failed (hS : S.mode = .slice) (h : u.owner ≠ none ∨ r.optional = false) :
    unmet S r u path = .ok .failed := by
  have hfull : ¬(S.mode = .full ∧ r.optional = false) := fun hfull => by cases hS.symm.trans hfull.1
  rw [unmet, if_neg hfull, if_pos ⟨hS, h⟩]

theorem unmet_dropped (hr : r.optional) (h : S.mode = .slice → u.owner = none) :
    unmet S r u path = .ok .dropped := by
  have hmandatory : r.optional ≠ false := by rw [hr]; exact nofun
  have hslice : ¬(S.mode = .slice ∧ (u.owner ≠ none ∨ r.optional = false)) := by
    rintro ⟨hS, hu | hr⟩
    · exact hu (h hS)
    · exact hmandatory hr
  rw [unmet, if_neg fun hfull => hmandatory hfull.2, if_neg hslice]

theorem unmet_ne_provider (q : Installable) : unmet S r u path ≠ .ok (.provider q) := by
  unfold unmet
  split
  · nofun
  · split <;> nofun

theorem ends_searchConfigured_none {owner : Option Source} (path : String)
    (h : ∀ s ∈ S.repositories.filter fun t => !owner.any t.same, ¬w₀.Provides r s)
    (howner : S.mode = .slice → u.owner = none) :
    w₀.Ends (searchConfigured access.recorded S r owner path)
      (S.repositories.filter fun t => !owner.any t.same) (unmet S r u path) := by
  rw [searchConfigured]
  refine ends_bind_last (ends_searchAll_none h) ?_
  dsimp only
  by_cases hr : r.optional
  · rw [if_pos hr, unmet_dropped hr howner]
    exact ends_bind_quiet (ends_debug _) (ends_pure _)
  · have hmandatory : r.optional = false := Bool.eq_false_iff.mpr hr
    rw [if_neg hr]
    cases hS : S.mode with
    | full =>
      rw [if_neg (by decide), unmet_unresolved hS hmandatory]
      exact ends_throw _
    | slice =>
      rw [if_pos rfl, unmet_failed hS (Or.inr hmandatory)]
      exact ends_bind_quiet (ends_debug _) (ends_pure _)

theorem ends_searchConfigured_some {owner : Option Source} {before : List Source} (path : String)
    (h : FirstOf (w₀.Provides r) (S.repositories.filter fun t => !owner.any t.same) before s)
    (hq : w₀.answer s r = .found q) :
    w₀.Ends (searchConfigured access.recorded S r owner path) (before ++ [s]) (.ok (.provider q)) := by
  rw [searchConfigured]
  exact ends_bind_last (ends_searchAll_some h hq) (ends_pure _)

/-- A search that begins with an owner without a unit goes on as the mode and the flags say. -/
theorem ends_search_of_owner {t : Source} {path : String} {ss : List Source}
    {e : Except Failure Outcome} (hu : u.owner = some t) (hnot : ¬w₀.Provides r t)
    (h : ∀ answer, w₀.Ends (searchBeyond access.recorded S r t path answer) ss e) :
    w₀.Ends (search access.recorded S r u path) (t :: ss) e := by
  rw [search_of_owner hu]
  refine ends_bind (ends_probe t r) ?_
  obtain ha | ⟨f, ha⟩ := answer_of_not_provides hnot <;> rw [ha]
  · exact h .absent
  · exact h (.failed f)

theorem ends_searchBeyond_of_slice {t : Source} (path : String) (answer : Probe)
    (hu : u.owner = some t) (hS : S.mode = .slice) :
    w₀.Ends (searchBeyond access.recorded S r t path answer) [] (unmet S r u path) := by
  obtain ⟨text, htext⟩ := ends_reason w₀ t answer
  rw [searchBeyond, if_pos hS, unmet_failed hS (Or.inl (hu ▸ Option.some_ne_none t))]
  exact ends_bind_quiet htext (ends_bind_quiet (ends_debug _) (ends_pure _))

theorem ends_searchBeyond_of_restrained {t : Source} (path : String) (answer : Probe)
    (hS : S.mode ≠ .slice) (hr : (r.optional && !r.greedy) = true) :
    w₀.Ends (searchBeyond access.recorded S r t path answer) [] (unmet S r u path) := by
  obtain ⟨text, htext⟩ := ends_reason w₀ t answer
  have hoptional : r.optional := (Bool.and_eq_true_iff.mp hr).1
  rw [searchBeyond, if_neg hS, if_pos hr, unmet_dropped hoptional (absurd · hS)]
  exact ends_bind_quiet htext (ends_bind_quiet (ends_debug _) (ends_pure _))

theorem ends_search_none (path : String) (h : ∀ s ∈ S.searched u r, ¬w₀.Provides r s) :
    w₀.Ends (search access.recorded S r u path) (S.searched u r) (unmet S r u path) := by
  cases hu : u.owner with
  | none =>
    rw [Setting.searched_of_ownerless hu] at h ⊢
    rw [search_of_ownerless hu]
    exact ends_searchConfigured_none path h fun _ => hu
  | some t =>
    by_cases hS : S.mode = .slice
    case pos =>
      rw [Setting.searched_of_slice hu hS] at h ⊢
      exact ends_search_of_owner hu (h t (List.mem_singleton_self t)) fun answer =>
        ends_searchBeyond_of_slice path answer hu hS
    case neg =>
      cases hr : r.optional && !r.greedy with
      | true =>
        rw [Setting.searched_of_restrained hu hr] at h ⊢
        exact ends_search_of_owner hu (h t (List.mem_singleton_self t)) fun answer =>
          ends_searchBeyond_of_restrained path answer hS hr
      | false =>
        have hr : ¬(r.optional && !r.greedy) = true := Bool.eq_false_iff.mp hr
        rw [Setting.searched_of_unrestrained hu hS hr] at h ⊢
        obtain ⟨hnot, h⟩ := List.forall_mem_cons.mp h
        refine ends_search_of_owner hu hnot fun answer => ?_
        rw [searchBeyond, if_neg hS, if_neg hr]
        exact ends_searchConfigured_none path h (absurd · hS)

/-- A search takes the first unit of the first repository that has one, and probes none behind it. -/
theorem ends_search_some {before : List Source} (path : String)
    (h : FirstOf (w₀.Provides r) (S.searched u r) before s) (hq : w₀.answer s r = .found q) :
    w₀.Ends (search access.recorded S r u path) (before ++ [s]) (.ok (.provider q)) := by
  cases hu : u.owner with
  | none =>
    rw [Setting.searched_of_ownerless hu] at h
    rw [search_of_ownerless hu]
    exact ends_searchConfigured_some path h hq
  | some t =>
    obtain ⟨ts, hts⟩ : ∃ ts, S.searched u r = t :: ts := by
      unfold Setting.searched
      rw [hu]
      dsimp only
      split <;> exact ⟨_, rfl⟩
    rw [hts] at h
    obtain ⟨rfl, rfl⟩ | ⟨before, rfl, hnot, h⟩ := h.of_cons
    · rw [search_of_owner hu]
      refine ends_bind_last (ends_probe t r) ?_
      rw [hq]
      exact ends_pure _
    -- The unit is not found with the owner, so neither slice mode nor the flags end the search there.
    · by_cases hS : S.mode = .slice
      · rw [Setting.searched_of_slice hu hS] at hts
        cases hts
        cases h.mem
      · by_cases hr : (r.optional && !r.greedy) = true
        · rw [Setting.searched_of_restrained hu hr] at hts
          cases hts
          cases h.mem
        · rw [Setting.searched_of_unrestrained hu hS hr] at hts
          obtain ⟨-, rfl⟩ := List.cons.inj hts
          refine ends_search_of_owner hu hnot fun answer => ?_
          rw [searchBeyond, if_neg hS, if_neg hr]
          exact ends_searchConfigured_some path h hq

/-! ### Decisions -/

/-- The repositories that a search probes, in order. -/
def probes (w : Workspace) (S : Setting) (r : Requirement) (u : Installable) (path : String) :
    List Source :=
  probed (endWorld (search access.recorded S r u path (w, []))).2

theorem search_of_ends (hw : w₀.Serves w) {ss : List Source} {e : Except Failure Outcome}
    (h : w₀.Ends (search access.recorded S r u path) ss e) :
    answerOf (search access S r u path w) = e ∧
      w₀.Serves (endWorld (search access S r u path w)) ∧ w.probes S r u path = ss := by
  obtain ⟨he, hserves, hss⟩ := h (w, []) hw
  have hsame := (mirrors_search (mirrored_recorded access) S r u path).same w (w, []) trivial rfl
  refine ⟨(answerOf_of_sameEnd hsame).symm.trans he, ?_, hss⟩
  cases hsearch : search access S r u path w with
  | ok o v | error f v =>
    rw [hsearch] at hsame
    obtain ⟨v', rfl, hv'⟩ := hsame
    rwa [hv'] at hserves

theorem Serves.label (hw : w₀.Serves w) (q : Installable) : ∃ label, access.label q w = .ok label w := by
  unfold Access.label
  cases q.owner with
  | none => exact ⟨_, rfl⟩
  | some s =>
    have hname : access.describe s w = .ok (w₀.naming s) w := hw.toResembles.describe s
    exact ⟨_, bind_of_ok hname⟩

section Settling

variable {p : Progress} (hresolved : p.state.isResolved r = false)
  (hfailed : p.state.isFailed r = false) (frame : Frame) (stack : List Frame)

include hresolved hfailed

theorem settle_of_open {σ : Type} (A : Access σ) (S : Setting) (v : σ) :
    settle A S r frame p stack v = (do
      match ← search A S r frame.unit frame.path with
      | .provider u =>
        let path := frame.path ++ " -> " ++ r.name ++ " -> " ++ (← A.label u)
        enter A S u path { p with state := p.state.addResolved r } stack
      | .dropped => return (p, stack)
      | .failed => return ({ p with state := p.state.addFailed r }, stack) : EStateM _ _ _)
      (A.note ⟨.debug, "Try to resolve " ++ r.text ++ "...", []⟩ v) := by
  rw [settle, if_neg (Bool.eq_false_iff.mp hresolved), if_neg (Bool.eq_false_iff.mp hfailed)]
  rfl

omit hresolved hfailed in
theorem Serves.noted (hw : w₀.Serves w) (m : Log.Record) : w₀.Serves (access.note m w) :=
  (lasting_serves w₀).note m w hw

theorem settle_of_provider (hw : w₀.Serves w) {ss : List Source}
    (h : w₀.Ends (search access.recorded S r frame.unit frame.path) ss (.ok (.provider q))) :
    ∃ path v, settle access S r frame p stack w = enter access S q path
      { p with state := { p.state with resolved := p.state.resolved.insert r.key } } stack v := by
  obtain ⟨hsearch, hserves, -⟩ :=
    search_of_ends (hw.noted ⟨.debug, "Try to resolve " ++ r.text ++ "...", []⟩) h
  obtain ⟨v, hv⟩ := exists_of_answerOf_eq_ok hsearch
  rw [hv] at hserves
  obtain ⟨label, hlabel⟩ := Serves.label (w := v) hserves q
  have hstate : p.state.addResolved r =
      { p.state with resolved := p.state.resolved.insert r.key } := by
    have hkept := State.failed_addResolved_of_isFailed_eq_false hfailed
    rw [State.failed_addResolved] at hkept
    rw [State.addResolved, hkept]
  rw [settle_of_open hresolved hfailed, bind_of_ok hv]
  dsimp only
  rw [bind_of_ok hlabel]
  exact ⟨_, v, by rw [hstate]⟩

theorem settle_of_unmet (hw : w₀.Serves w) {ss : List Source}
    (h : w₀.Ends (search access.recorded S r frame.unit frame.path) ss
      (unmet S r frame.unit frame.path)) :
    answerOf (settle access S r frame p stack w) = (unmet S r frame.unit frame.path).map fun
      | .failed => ({ p with state := { p.state with failed := p.state.failed ++ [r] } }, stack)
      | _ => (p, stack) := by
  have hstate : p.state.addFailed r = { p.state with failed := p.state.failed ++ [r] } :=
    if_neg (by simp [hresolved, hfailed])
  obtain ⟨hsearch, -, -⟩ :=
    search_of_ends (hw.noted ⟨.debug, "Try to resolve " ++ r.text ++ "...", []⟩) h
  rw [settle_of_open hresolved hfailed, ← hstate]
  cases hunmet : unmet S r frame.unit frame.path with
  | error f =>
    rw [hunmet] at hsearch
    obtain ⟨v, hv⟩ := exists_of_answerOf_eq_error hsearch
    rw [bind_of_error hv]
    rfl
  | ok o =>
    rw [hunmet] at hsearch
    obtain ⟨v, hv⟩ := exists_of_answerOf_eq_ok hsearch
    rw [bind_of_ok hv]
    cases o with
    | provider q => exact absurd hunmet (unmet_ne_provider q)
    | dropped => rfl
    | failed => rfl

end Settling

/-- The owner of a unit comes first in a search, and nothing that is the same comes behind it. -/
theorem searched_of_owner (S : Setting) (r : Requirement) {s : Source} (hu : u.owner = some s) :
    ∃ ts, S.searched u r = s :: ts ∧ ∀ t ∈ ts, s.same t = false := by
  unfold Setting.searched
  rw [hu]
  dsimp only
  split
  · exact ⟨[], rfl, nofun⟩
  · refine ⟨_, rfl, fun t ht => ?_⟩
    have hne := (List.mem_filter.mp ht).2
    rw [Source.same, Bool.not_eq_true', decide_eq_false_iff_not] at hne
    exact decide_eq_false (Ne.symm hne)

theorem filter_same_of_prefix {s : Source} {ps : List Source} (hu : u.owner = some s)
    (hne : ps ≠ []) (h : ps <+: S.searched u r) : ps.filter s.same = [s] := by
  obtain ⟨ts, hts, hother⟩ := searched_of_owner S r hu
  rw [hts] at h
  obtain ⟨t, ps, rfl⟩ := List.exists_cons_of_ne_nil hne
  obtain ⟨rfl, hrest⟩ := List.cons_prefix_cons.mp h
  have hself : t.same t = true := decide_eq_true rfl
  rw [List.filter_cons_of_pos hself, List.filter_eq_nil_iff.mpr]
  exact fun p hp => Bool.eq_false_iff.mp (hother p (hrest.subset hp))

theorem probes_prefix (hw : w₀.Serves w) (S : Setting) (r : Requirement) (u : Installable)
    (path : String) : w.probes S r u path <+: S.searched u r ∧
      (S.searched u r ≠ [] → w.probes S r u path ≠ []) := by
  by_cases h : ∃ s ∈ S.searched u r, w₀.Provides r s
  · obtain ⟨s, hs, hprovides⟩ := h
    obtain ⟨before, t, hfirst⟩ := FirstOf.exists_of_mem hs hprovides
    obtain ⟨_, _, q, -, -, hanswer⟩ := answer_of_provides hfirst.holds
    obtain ⟨-, -, hprobes⟩ := search_of_ends hw (ends_search_some path hfirst hanswer)
    obtain ⟨back, hback⟩ := hfirst.listed
    rw [hprobes]
    exact ⟨⟨back, by rw [hback, List.append_assoc, List.singleton_append]⟩, fun _ => by simp⟩
  · have hnone : ∀ s ∈ S.searched u r, ¬w₀.Provides r s := fun s hs hp => h ⟨s, hs, hp⟩
    obtain ⟨-, -, hprobes⟩ := search_of_ends hw (ends_search_none path hnone)
    rw [hprobes]
    exact ⟨List.prefix_refl _, id⟩

/-- How a requirement that is neither resolved nor failed is settled: the first repository of the
search that has a unit decides, no further one is probed, and the owner is so once. The state is left
as it is, but that the requirement becomes resolved or failed. -/
structure Decides (w : Workspace) (S : Setting) (r : Requirement) (frame : Frame) (p : Progress)
    (stack : List Frame) : Prop where
  found : ∀ before s, FirstOf (w.Provides r) (S.searched frame.unit r) before s →
    ∃ us front q, w.units? s = some us ∧ FirstOf (fun q => q.satisfies r) us front q ∧
      answerOf (search access S r frame.unit frame.path w) = .ok (.provider q) ∧
      w.probes S r frame.unit frame.path = before ++ [s] ∧
      ∃ path v, settle access S r frame p stack w = enter access S q path
        { p with state := { p.state with resolved := p.state.resolved.insert r.key } } stack v
  missed : (∀ s ∈ S.searched frame.unit r, ¬w.Provides r s) →
    answerOf (search access S r frame.unit frame.path w) =
        unmet S r frame.unit frame.path ∧
      w.probes S r frame.unit frame.path = S.searched frame.unit r ∧
      answerOf (settle access S r frame p stack w) = (unmet S r frame.unit frame.path).map fun
        | .failed => ({ p with state := { p.state with failed := p.state.failed ++ [r] } }, stack)
        | _ => (p, stack)
  once : ∀ s, frame.unit.owner = some s →
    (w.probes S r frame.unit frame.path).filter s.same = [s]

/-- Mode, flags and owner decide every search in repositories in memory, readable or not. -/
theorem decides_of_inMemory (hw : ∀ q ∈ w.repositories, q.InMemory) (S : Setting) {p : Progress}
    (hresolved : p.state.isResolved r = false) (hfailed : p.state.isFailed r = false)
    (frame : Frame) (stack : List Frame) : w.Decides S r frame p stack := by
  have hserves := serves_of_inMemory hw
  refine ⟨fun before s hfirst => ?_, fun hnone => ?_, fun s hu => ?_⟩
  · obtain ⟨us, front, q, hus, hq, hanswer⟩ := answer_of_provides hfirst.holds
    have hends := ends_search_some frame.path hfirst hanswer
    obtain ⟨hsearch, -, hprobes⟩ := search_of_ends hserves hends
    exact ⟨us, front, q, hus, hq, hsearch, hprobes,
      settle_of_provider hresolved hfailed frame stack hserves hends⟩
  · have hends := ends_search_none frame.path hnone
    obtain ⟨hsearch, -, hprobes⟩ := search_of_ends hserves hends
    exact ⟨hsearch, hprobes, settle_of_unmet hresolved hfailed frame stack hserves hends⟩
  · obtain ⟨ts, hts, -⟩ := searched_of_owner S r hu
    obtain ⟨hbegins, hne⟩ := probes_prefix hserves S r frame.unit frame.path
    exact filter_same_of_prefix hu (hne (hts ▸ List.cons_ne_nil s ts)) hbegins

end Workspace

namespace Operation

namespace Sample

open Resolution.Sample (memory first second third unit asks gives)

def stalls : Workspace where
  repositories := #[{ memory "first" [unit first "own" [] [gives "p"]] with isOffline := true },
    memory "second" [unit second "other" [] []], memory "third" [unit third "lib" [] [gives "p"]]]

def caller : Frame := ⟨unit first "app" [asks "p"] [], "app", []⟩

/-- The owner of the unit is configured behind another repository and once more. -/
def scattered (mode : IncludeMode) : Setting := ⟨[second, first, third, first], mode⟩

end Sample

open Sample Resolution.Sample

theorem provides_stalls : ¬stalls.Provides (asks "p") first ∧ ¬stalls.Provides (asks "p") second ∧
    stalls.Provides (asks "p") third := by
  refine ⟨?_, ?_, _, rfl, _, List.mem_cons_self, by decide⟩
  · rintro ⟨us, hus, -⟩
    have hnone : stalls.units? first = none := rfl
    cases hnone.symm.trans hus
  · rintro ⟨us, hus, q, hq, hsatisfies⟩
    have hunits : stalls.units? second = some [unit second "other" [] []] := rfl
    obtain rfl := Option.some.inj (hunits.symm.trans hus)
    obtain rfl := List.mem_singleton.mp hq
    exact absurd hsatisfies (by decide)

/-- In full the repository behind the owner that has the package is reached; in slice mode only the
owner is probed, and the requirement fails. -/
theorem decides_of_inMemory_stalls : (∀ q ∈ stalls.repositories, q.InMemory) ∧
    stalls.Decides (scattered .full) (asks "p") caller {} [] ∧
    stalls.probes (scattered .full) (asks "p") caller.unit caller.path = [first, second, third] ∧
    stalls.Decides (scattered .slice) (asks "p") caller {} [] ∧
    answerOf (settle access (scattered .slice) (asks "p") caller {} [] stalls) =
      .ok ({ state := { failed := [asks "p"] } }, []) := by
  have hmem : ∀ q ∈ stalls.repositories, q.InMemory := by
    simp only [stalls, List.mem_toArray, List.forall_mem_cons, List.not_mem_nil, false_imp_iff,
      implies_true, and_true]
    exact ⟨⟨⟨_, rfl⟩, nofun⟩, ⟨⟨_, rfl⟩, nofun⟩, ⟨_, rfl⟩, nofun⟩
  obtain ⟨hfirst, hsecond, hthird⟩ := provides_stalls
  have hfull := Workspace.decides_of_inMemory hmem (scattered .full) (r := asks "p") (p := {})
    rfl rfl caller []
  have hslice := Workspace.decides_of_inMemory hmem (scattered .slice) (r := asks "p") (p := {})
    rfl rfl caller []
  have hbefore : FirstOf (stalls.Provides (asks "p"))
      (Setting.searched (scattered .full) caller.unit (asks "p")) [first, second] third :=
    ⟨⟨[], rfl⟩, hthird, by simpa using ⟨hfirst, hsecond⟩⟩
  obtain ⟨_, _, _, -, -, -, hprobes, -⟩ := hfull.found _ _ hbefore
  obtain ⟨-, -, hsettle⟩ := hslice.missed fun s hs => by
    obtain rfl : s = first := List.mem_singleton.mp hs
    exact hfirst
  exact ⟨hmem, hfull, hprobes, hslice, hsettle⟩

end Operation

end Provision
