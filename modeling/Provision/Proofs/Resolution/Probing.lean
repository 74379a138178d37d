import Provision.Proofs.Resolution.Calls

namespace Provision.Resolution

variable {σ α : Type}

def Question.probed? : Question → Option Source
  | .list s => some s
  | .materialize _ | .describe _ => none

def probed (cs : List Call) : List Source := cs.filterMap fun c => c.1.probed?

/-- What is asked of the repositories by what comes next at a moment, whether it fails or not. -/
def Moment.asks (A : Access σ) (S : Setting) (m : Moment σ) : List Call :=
  match m.stack, m.roots with
  | frame :: stack, _ => (endWorld (step A.recorded S m.progress frame stack (m.world, []))).2
  | [], u :: _ => (endWorld (Resolution.start A.recorded S u m.progress (m.world, []))).2
  | [], [] => []

/-- Repositories of which only some have units. -/
def Access.within (A : Access σ) (ss : List Source) : Access σ :=
  { A with list := fun s => if s ∈ ss then A.list s else pure [] }

variable {A : Access σ} {S : Setting} {ss : List Source}

theorem probe_within {s : Source} (hs : s ∈ ss) (r : Requirement) :
    (A.within ss).probe s r = A.probe s r := by
  funext w
  simp only [Access.probe, Access.within, if_pos hs]

theorem searchAll_within {owner : Option Source} (r : Requirement) {ts : List Source}
    (h : ts.filter (fun t => !owner.any t.same) ⊆ ss) :
    searchAll (A.within ss) owner r ts = searchAll A owner r ts := by
  induction ts with
  | nil => rfl
  | cons t ts ih =>
    rw [searchAll, searchAll]
    by_cases ht : owner.any t.same
    · rw [List.filter_cons_of_neg (by simp [ht])] at h
      rw [if_pos ht, if_pos ht, ih h]
    · rw [List.filter_cons_of_pos (by simp [ht])] at h
      obtain ⟨hmem, hrest⟩ := List.cons_subset.mp h
      rw [if_neg ht, if_neg ht, probe_within hmem, ih hrest]
      rfl

theorem search_within {u : Installable} {r : Requirement} (h : S.searched u r ⊆ ss)
    (path : String) : search (A.within ss) S r u path = search A S r u path := by
  cases hu : u.owner with
  | none =>
    rw [Setting.searched_of_ownerless hu] at h
    rw [search_of_ownerless hu, search_of_ownerless hu]
    simp only [searchConfigured, searchAll_within r h]
    rfl
  | some s =>
    have hs : s ∈ S.searched u r := by
      unfold Setting.searched
      rw [hu]
      dsimp only
      split <;> exact List.mem_cons_self
    have hbeyond (answer : Probe) : searchBeyond (A.within ss) S r s path answer =
        searchBeyond A S r s path answer := by
      unfold searchBeyond
      split
      case isTrue => rfl
      case isFalse hS =>
        split
        case isTrue => rfl
        case isFalse hr =>
          rw [Setting.searched_of_unrestrained hu hS hr] at h
          simp only [searchConfigured, searchAll_within r (List.cons_subset.mp h).2]
          rfl
    rw [search_of_owner hu, search_of_owner hu, probe_within (h hs)]
    refine bind_congr ?_
    rintro (q | _ | f)
    · rfl
    · exact hbeyond .absent
    · exact hbeyond (.failed f)

def ProbedIn (ss : List Source) (v : σ × List Call) : Prop := probed v.2 ⊆ ss

theorem probed_record (q : Question) (x : EStateM Failure σ q.Reply) (v : σ × List Call) :
    probed (endWorld (record q x v)).2 = probed v.2 ++ q.probed?.toList := by
  obtain ⟨w, cs⟩ := v
  unfold record
  dsimp only
  cases x w <;> cases h : q.probed? <;> simp [endWorld, probed, h]

theorem mirrored_within (A : Access σ) (ss : List Source) :
    (A.recorded.within ss).Mirrored (fun _ => True) (fun v v' => v = v' ∧ ProbedIn ss v)
      (A.recorded.within ss) := by
  refine mirrored_self (fun q v hv => ?_) fun _ _ hv => hv
  cases q with
  | list s =>
    change ProbedIn ss (endWorld ((if s ∈ ss then A.recorded.list s else pure []) v))
    by_cases hs : s ∈ ss
    · rw [if_pos hs]
      change probed (endWorld (record (.list s) (A.list s) v)).2 ⊆ ss
      rw [probed_record]
      exact List.append_subset.mpr ⟨hv, by simpa [Question.probed?] using hs⟩
    · rw [if_neg hs]
      exact hv
  | materialize u =>
    change probed (endWorld (record (.materialize u) (A.materialize u) v)).2 ⊆ ss
    rwa [probed_record, Question.probed?, Option.toList_none, List.append_nil]
  | describe s =>
    change probed (endWorld (record (.describe s) (A.describe s) v)).2 ⊆ ss
    rwa [probed_record, Question.probed?, Option.toList_none, List.append_nil]

theorem alike_recorded (A : Access σ) (S : Setting) (ss : List Source) :
    Alike (fun _ => True) (fun v v' => v = v' ∧ ProbedIn ss v) A.recorded S A.recorded S where
  back _ _ _ := trivial
  note := (mirrored_within A ss).note
  label u := (mirrors_label (mirrored_within A ss) u :)
  contents u := (mirrors_contents (mirrored_within A ss) S u :)

theorem probed_of_mirrors {x : EStateM Failure (σ × List Call) α}
    (h : Mirrors (fun _ => True) (fun v v' => v = v' ∧ ProbedIn ss v) x x) (w : σ) :
    probed (endWorld (x (w, []))).2 ⊆ ss := by
  have hstart : ProbedIn ss (w, []) := List.nil_subset ss
  exact h.keeps hstart

/-- What comes next at a moment probes only the repositories where the next requirement of the unit on
top of the stack may be searched. -/
theorem probed_asks {m : Moment σ} {s : Source} (hs : s ∈ probed (m.asks A S)) :
    ∃ f stack r rs, m.stack = f :: stack ∧ f.pending = r :: rs ∧ s ∈ S.searched f.unit r := by
  obtain ⟨⟨us, p, stack⟩, w⟩ := m
  cases stack with
  | nil =>
    cases us with
    | nil => cases hs
    | cons u us => cases probed_of_mirrors ((alike_recorded A S []).start u p) w hs
  | cons f stack =>
    cases hpending : f.pending with
    | nil =>
      have hstep := (alike_recorded A S []).step p f stack (by simp [hpending])
      cases probed_of_mirrors hstep w hs
    | cons r rs =>
      have hsearch : ∀ q ∈ f.pending.head?, Mirrors (fun _ => True)
          (fun v v' => v = v' ∧ ProbedIn (S.searched f.unit r) v)
          (search A.recorded S q f.unit f.path) (search A.recorded S q f.unit f.path) := by
        rintro q hq
        obtain rfl : r = q := by simpa [hpending] using hq
        rw [← search_within (List.Subset.refl _)]
        exact mirrors_search (mirrored_within A _) S r f.unit f.path
      have hstep := (alike_recorded A S _).step p f stack hsearch
      exact ⟨f, stack, r, rs, rfl, hpending, probed_of_mirrors hstep w hs⟩

end Provision.Resolution
