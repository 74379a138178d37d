import Mathlib.Tactic.ByContra
import Provision.Proofs.Http.Client

namespace Provision.Http

def Outcome.answer? : Outcome → Option Response
  | .answer r => if 500 ≤ r.status then none else some r
  | .timeout | .failure _ => none

theorem answer?_of_lt {r : Response} (h : r.status < 500) : (Outcome.answer r).answer? = some r := by
  simp [Outcome.answer?, h]

/-- What is said of an outcome that is no answer below 500. -/
def Outcome.reason : Outcome → String
  | .timeout => "timeout"
  | .failure reason => reason
  | .answer r => "HTTP " ++ toString r.status

def Ending.answer? : Ending → Option Response
  | .answer r => some r
  | .gaveUp _ | .failed _ => none

def Server.outcomes (s : Server) (url : String) : Nat → List Outcome
  | 0 => []
  | n + 1 => (s.next url).1 :: (s.next url).2.outcomes url n

def Event.isCall : Event → Bool
  | .called => true
  | .hit | .slept _ | .failed _ _ | .answered _ _ => false

def requests (events : List Event) : Nat :=
  events.countP Event.isCall

theorem requests_append (events events' : List Event) :
    requests (events ++ events') = requests events + requests events' :=
  List.countP_append

theorem judge_answer? (attempt : Nat) (o : Outcome) :
    (judge attempt o).2.getLeft? = o.answer? := by
  cases o with
  | timeout | failure reason => rfl
  | answer r =>
    unfold judge Outcome.answer?
    dsimp only
    split <;> rfl

theorem judge_of_answer {o : Outcome} {r : Response} (h : o.answer? = some r) (attempt : Nat) :
    (judge attempt o).2 = .inl r := by
  rw [← judge_answer? attempt o] at h
  exact Sum.getLeft?_eq_some_iff.mp h

theorem judge_of_failure {o : Outcome} (h : o.answer? = none) (attempt : Nat) :
    (judge attempt o).2 = .inr o.reason := by
  cases o with
  | timeout | failure reason => rfl
  | answer r =>
    by_cases hstatus : 500 ≤ r.status
    · simp [judge, Outcome.reason, hstatus]
    · simp [Outcome.answer?, hstatus] at h

theorem isCall_judge (attempt : Nat) (o : Outcome) : (judge attempt o).1.isCall = false := by
  cases o <;> rfl

namespace Client

variable {τ : Type} {c : Client τ} {k : Course τ} {url : String} {attempt left : Nat}
  {reason : Option String} {s : Server} {now : τ} {waited : List Event × τ}

def arrivals (c : Client τ) (k : Course τ) (url : String) :
    (attempt n : Nat) → Server → τ → List (Outcome × τ)
  | _, 0, _, _ => []
  | attempt, n + 1, s, now =>
    match c.wait k attempt now with
    | .error _ => []
    | .ok (_, now) =>
      let arrival := ((s.next url).1, k.arrival attempt (s.next url).1 now)
      arrival :: c.arrivals k url (attempt + 1) n (s.next url).2 arrival.2

/-- What is kept of an outcome that comes at a moment. -/
def kept? (arrival : Outcome × τ) : Option (Kept τ) :=
  arrival.1.answer?.map fun r => ⟨r, arrival.2⟩

theorem requests_of_wait (h : c.wait k attempt now = .ok waited) : requests waited.1 = 0 := by
  obtain rfl | ⟨delay, -, rfl⟩ := cases_of_wait h <;> rfl

theorem requests_attempt (hwait : c.wait k attempt now = .ok waited) {event : Event}
    (hevent : event.isCall = false) (events : List Event) :
    requests (waited.1 ++ [.called, event] ++ events) = requests events + 1 := by
  have hcall : requests [.called, event] = 1 := by
    rw [requests, List.countP_cons_of_pos rfl, List.countP_cons_of_neg (by rw [hevent]; decide)]
    rfl
  rw [requests_append, requests_append, requests_of_wait hwait, hcall]
  omega

theorem tries_of_answer (hnoting : k.noting = .ok ()) (hwait : c.wait k attempt now = .ok waited)
    {r : Response} (h : (s.next url).1.answer? = some r) :
    c.tries k url (left + 1) attempt reason s now =
      { events := waited.1 ++ [.called, (judge attempt (s.next url).1).1]
        ending := .answer r
        server := (s.next url).2
        clock := k.arrival attempt (s.next url).1 waited.2 } := by
  have hverdict := judge_of_answer h attempt
  rw [tries, hwait]
  dsimp only
  generalize judge attempt (s.next url).1 = verdict at hverdict
  obtain ⟨event, _⟩ := verdict
  cases hverdict
  rw [hnoting]

theorem tries_of_failure (hnoting : k.noting = .ok ()) (hwait : c.wait k attempt now = .ok waited)
    (h : (s.next url).1.answer? = none) :
    c.tries k url (left + 1) attempt reason s now =
      let rest := c.tries k url left (attempt + 1) (some (s.next url).1.reason) (s.next url).2
        (k.arrival attempt (s.next url).1 waited.2)
      { rest with
        events := waited.1 ++ [.called, (judge attempt (s.next url).1).1] ++ rest.events } := by
  have hverdict := judge_of_failure h attempt
  rw [tries, hwait]
  dsimp only
  generalize judge attempt (s.next url).1 = verdict at hverdict
  obtain ⟨event, _⟩ := verdict
  cases hverdict
  rw [hnoting]

/-- Trying ends with the answer that is the latest below 500 of all that came, if any did, at the
moment at which it came. -/
theorem kept?_tries (hnoting : k.noting = .ok ()) (url : String) (left attempt : Nat)
    (reason : Option String) (s : Server) (now : τ) :
    (c.tries k url left attempt reason s now).ending.answer?.map
        (fun r => (⟨r, (c.tries k url left attempt reason s now).clock⟩ : Kept τ)) =
      (c.arrivals k url attempt (requests (c.tries k url left attempt reason s now).events)
        s now).reverse.findSome? kept? := by
  -- All attempts but the last one failed, so the latest answer is that of the last one or none.
  induction left generalizing attempt reason s now with
  | zero => rfl
  | succ left ih =>
    cases hwait : c.wait k attempt now with
    | error cause =>
      rw [tries, hwait]
      rfl
    | ok waited =>
      have hevent := isCall_judge attempt (s.next url).1
      cases hanswer : (s.next url).1.answer? with
      | some r =>
        have hcount := requests_attempt hwait hevent []
        rw [List.append_nil] at hcount
        rw [tries_of_answer hnoting hwait hanswer, hcount, arrivals, hwait]
        dsimp only
        rw [requests, List.countP_nil, arrivals, List.reverse_singleton, List.findSome?_singleton, kept?,
          hanswer]
        rfl
      | none =>
        rw [tries_of_failure hnoting hwait hanswer, requests_attempt hwait hevent, arrivals, hwait]
        dsimp only
        rw [List.reverse_cons, List.findSome?_append, List.findSome?_singleton, kept?, hanswer, ih]
        exact (Option.or_none).symm

theorem exists_events_tries (hwait : c.wait k attempt now = .ok waited) :
    ∃ events, (c.tries k url (left + 1) attempt reason s now).events =
      waited.1 ++ [.called, (judge attempt (s.next url).1).1] ++ events := by
  rw [tries, hwait]
  dsimp only
  obtain ⟨event, verdict⟩ := judge attempt (s.next url).1
  cases k.noting with
  | error cause => exact ⟨[], (List.append_nil _).symm⟩
  | ok _ =>
    cases verdict with
    | inl r => exact ⟨[], (List.append_nil _).symm⟩
    | inr reason => exact ⟨_, rfl⟩

theorem requests_tries_pos (c : Client τ) (k : Course τ) (url : String) (left : Nat) (s : Server)
    (now : τ) : 0 < requests (c.tries k url (left + 1) 1 none s now).events := by
  -- The first attempt waits for nothing, so it is made whenever one is left.
  have hwait : c.wait k 1 now = .ok ([], now) := rfl
  obtain ⟨events, hevents⟩ := exists_events_tries hwait
  rw [hevents, requests_attempt hwait (isCall_judge 1 _)]
  exact Nat.succ_pos _

/-! ### What a client keeps of it -/

variable {attempts : Nat}

theorem requests_send_pos (h : c.settings.attempts = .ok (attempts + 1)) (k : Course τ)
    (url key : String) : 0 < requests (c.send k url key).2.1 := by
  have hpos := c.requests_tries_pos k url attempts c.server c.clock
  unfold send
  rw [h]
  dsimp only
  split <;> exact hpos

/-- Where a request is sent, the latest answer below 500 that came is kept for it, and the cache is
as it was if none did. -/
theorem cache_send (c : Client τ) (hnoting : k.noting = .ok ()) (url key : String) :
    (c.send k url key).2.2.cache =
      ((c.arrivals k url 1 (requests (c.send k url key).2.1) c.server c.clock).reverse.findSome?
        kept?).elim c.cache fun kept => (key, kept) :: c.cache.filter fun entry => entry.1 != key := by
  unfold send
  cases c.settings.attempts with
  | error f => rfl
  | ok n =>
    have hkept := c.kept?_tries hnoting url n 1 none c.server c.clock
    dsimp only
    generalize c.tries k url n 1 none c.server c.clock = t at hkept
    obtain ⟨events, r | reason | cause, server, clock⟩ := t <;>
      · dsimp only at hkept ⊢
        rw [← hkept]
        rfl

theorem send_of_answer (h : c.settings.attempts = .ok (attempts + 1)) (hnoting : k.noting = .ok ())
    {r : Response} (hnext : (c.server.next url).1 = .answer r) (hstatus : r.status < 500)
    (key : String) : (c.send k url key).1 = .ok r := by
  have hwait : c.wait k 1 c.clock = .ok ([], c.clock) := rfl
  have hanswer : (c.server.next url).1.answer? = some r := by rw [hnext, answer?_of_lt hstatus]
  unfold send
  rw [h]
  dsimp only
  rw [tries_of_answer hnoting hwait hanswer]

variable [Time τ] {headers : Headers} {kept : Kept τ}

theorem get_of_fresh (hnoting : k.noting = .ok ())
    (hkept : c.cache.lookup (cacheKey url headers) = some kept) (hfresh : c.isFresh kept = .ok true) :
    c.get url headers k = (.ok kept.response, [.hit], c) := by
  unfold get
  dsimp only
  rw [hkept]
  dsimp only
  rw [hfresh, hnoting]
  rfl

theorem get_of_stale (hstale : ∀ kept, c.cache.lookup (cacheKey url headers) = some kept →
    c.isFresh kept = .ok false) : c.get url headers k = c.send k url (cacheKey url headers) := by
  unfold get
  dsimp only
  cases hkept : c.cache.lookup (cacheKey url headers) with
  | none => rfl
  | some kept =>
    dsimp only
    rw [hstale kept hkept]

theorem stale_of_not_fresh
    (httl : ∀ span : τ, ∃ b, Time.isShorter span c.settings.cacheTtl = .ok b) {key : String}
    (hfresh : ¬∃ kept, c.cache.lookup key = some kept ∧ c.isFresh kept = .ok true) :
    ∀ kept, c.cache.lookup key = some kept → c.isFresh kept = .ok false := by
  intro kept hkept
  obtain ⟨b, hb⟩ : ∃ b, c.isFresh kept = .ok b := httl _
  cases b with
  | true => exact absurd ⟨kept, hkept, hb⟩ hfresh
  | false => exact hb

theorem requests_get_of_fresh (hkept : c.cache.lookup (cacheKey url headers) = some kept)
    (hfresh : c.isFresh kept = .ok true) (k : Course τ) :
    requests (c.get url headers k).2.1 = 0 ∧ (c.get url headers k).2.2 = c := by
  unfold get
  dsimp only
  rw [hkept]
  dsimp only
  rw [hfresh]
  exact ⟨rfl, rfl⟩

theorem requests_get_eq_zero_iff (hattempts : c.settings.attempts = .ok (attempts + 1))
    (httl : ∀ span : τ, ∃ b, Time.isShorter span c.settings.cacheTtl = .ok b) (url : String)
    (headers : Headers) (k : Course τ := {}) :
    requests (c.get url headers k).2.1 = 0 ↔
      ∃ kept, c.cache.lookup (cacheKey url headers) = some kept ∧ c.isFresh kept = .ok true := by
  constructor
  · intro hzero
    by_contra hfresh
    rw [get_of_stale (stale_of_not_fresh httl hfresh)] at hzero
    exact absurd hzero (Nat.ne_of_gt (requests_send_pos hattempts k url _))
  · rintro ⟨kept, hkept, hfresh⟩
    exact (requests_get_of_fresh hkept hfresh k).1

end Client

end Provision.Http
