import Mathlib.Algebra.Group.Nat.Defs
import Provision.Proofs.Http.Attempts

namespace Provision.Http

def Server.asked (s : Server) (url : String) : Nat → Server
  | 0 => s
  | n + 1 => (s.next url).2.asked url n

theorem Server.outcomes_add (s : Server) (url : String) (m n : Nat) :
    s.outcomes url (m + n) = s.outcomes url m ++ (s.asked url m).outcomes url n := by
  induction m generalizing s with
  | zero => rw [Nat.zero_add]; rfl
  | succ m ih =>
    rw [Nat.add_right_comm, outcomes, outcomes, ih]
    rfl

theorem Server.length_outcomes (s : Server) (url : String) (n : Nat) :
    (s.outcomes url n).length = n := by
  induction n generalizing s with
  | zero => rfl
  | succ n ih => exact congrArg Nat.succ (ih _)

/-! ### Waits between requests -/

def Event.isPaced : Event → Bool
  | .slept _ | .called => true
  | .hit | .failed _ _ | .answered _ _ => false

def pace (events : List Event) : List Event :=
  events.filter Event.isPaced

/-- The wait before an attempt, counted from one, where these are the delays. -/
def waits (delay : Nat → Value) (attempt : Nat) : List Event :=
  if attempt ≤ 1 then [] else [.slept (delay (attempt - 2))]

def paces (delay : Nat → Value) : (attempt left : Nat) → List Event
  | _, 0 => []
  | attempt, left + 1 => waits delay attempt ++ .called :: paces delay (attempt + 1) left

theorem isPaced_judge (attempt : Nat) (o : Outcome) : (judge attempt o).1.isPaced = false := by
  cases o <;> rfl

theorem pace_waits (delay : Nat → Value) (attempt : Nat) :
    pace (waits delay attempt) = waits delay attempt := by
  by_cases hfirst : attempt ≤ 1 <;> simp [pace, waits, Event.isPaced, hfirst]

theorem pace_attempt (delay : Nat → Value) (attempt : Nat) (o : Outcome) (events : List Event) :
    pace (waits delay attempt ++ [.called, (judge attempt o).1] ++ events) =
      waits delay attempt ++ .called :: pace events := by
  have hevent : ¬(judge attempt o).1.isPaced := by simp [isPaced_judge]
  rw [List.append_assoc, pace, List.filter_append, ← pace, pace_waits]
  dsimp only [List.cons_append, List.nil_append]
  rw [List.filter_cons_of_pos rfl, List.filter_cons_of_neg hevent, ← pace]

theorem paces_of_two_le (delay : Nat → Value) (skipped left : Nat) :
    paces delay (skipped + 2) left =
      (List.range left).flatMap fun i => [.slept (delay (skipped + i)), .called] := by
  induction left generalizing skipped with
  | zero => rfl
  | succ left ih =>
    have hnext : skipped + 2 + 1 = skipped + 1 + 2 := by omega
    rw [paces, hnext, ih, List.range_succ_eq_map, List.flatMap_cons, List.flatMap_map]
    simp [waits, Nat.add_assoc, Nat.add_comm 1]

theorem paces_one (delay : Nat → Value) (left : Nat) :
    paces delay 1 (left + 1) =
      .called :: (List.range left).flatMap fun i => [.slept (delay i), .called] := by
  have hrest := paces_of_two_le delay 0 left
  simp only [Nat.zero_add] at hrest
  simp [paces, waits, hrest]

/-! ### One attempt, and all of them -/

namespace Client

variable {τ : Type} {c : Client τ} {k : Course τ} {delay : Nat → Value} {url : String}
  {left attempt : Nat} {s : Server} {now : τ}

theorem delay?_of_times {base : Value} {n : Nat}
    (hdelay : ∀ i, i + 1 < n → base.times (2 ^ i) = .ok (delay i)) (hattempt : attempt ≤ n) :
    delay? base attempt = .ok (if attempt ≤ 1 then none else some (delay (attempt - 2))) := by
  unfold delay?
  by_cases hfirst : attempt ≤ 1
  · rw [if_pos hfirst, if_pos hfirst]
    rfl
  · have htimes : base.times (Nat.pow 2 (attempt - 2)) = .ok (delay (attempt - 2)) :=
      hdelay (attempt - 2) (by omega)
    rw [if_neg hfirst, if_neg hfirst, htimes]
    rfl

section Waits

variable {n : Nat}
  (hdelay : ∀ i, i + 1 < n → c.settings.baseDelay.times (2 ^ i) = .ok (delay i))
include hdelay

theorem wait_of_sleep (hattempt : attempt ≤ n)
    (hsleep : ∀ i, i + 2 = attempt → c.sleep (delay i) = .ok ()) (k : Course τ) (now : τ) :
    ∃ waited, c.wait k attempt now = .ok waited := by
  refine wait_returns (delay?_of_times hdelay hattempt) (fun d hd => ?_) k now
  by_cases hfirst : attempt ≤ 1
  · rw [if_pos hfirst] at hd
    cases hd
  · rw [if_neg hfirst] at hd
    cases hd
    exact hsleep (attempt - 2) (by omega)

theorem wait_of_refused {i : Nat} (hattempt : i + 2 ≤ n) {cause : Failure}
    (hrefused : c.sleep (delay i) = .error cause) (k : Course τ) (now : τ) :
    c.wait k (i + 2) now = .error cause := by
  have hgiven := delay?_of_times hdelay hattempt
  rw [if_neg (by omega), Nat.add_sub_cancel] at hgiven
  unfold wait
  rw [hgiven]
  change (c.sleep (delay i) >>= fun _ => _) = _
  rw [hrefused]
  rfl

theorem events_of_wait (hattempt : attempt ≤ n) {waited : List Event × τ}
    (h : c.wait k attempt now = .ok waited) : waited.1 = waits delay attempt := by
  unfold wait at h
  rw [delay?_of_times hdelay hattempt] at h
  unfold waits
  by_cases hfirst : attempt ≤ 1
  · rw [if_pos hfirst] at h ⊢
    cases h
    rfl
  · rw [if_neg hfirst] at h ⊢
    obtain ⟨_, -, hrest⟩ := bind_eq_ok_iff.mp
      (show (c.sleep (delay (attempt - 2)) >>= fun _ => _) = .ok waited from h)
    cases hrest
    rfl

theorem pace_tries (hnoting : k.noting = .ok ()) (url : String) (reason : Option String) (s : Server)
    (now : τ) (hleft : attempt + left ≤ n + 1) :
    pace (c.tries k url left attempt reason s now).events =
      paces delay attempt (requests (c.tries k url left attempt reason s now).events) := by
  -- The wait belongs to the attempt behind it, so the last one that is made has none behind it.
  induction left generalizing attempt reason s now with
  | zero => rfl
  | succ left ih =>
    cases hwait : c.wait k attempt now with
    | error cause =>
      rw [tries, hwait]
      rfl
    | ok waited =>
      have hevent := isCall_judge attempt (s.next url).1
      have hwaiting := events_of_wait hdelay (by omega) hwait
      cases hanswer : (s.next url).1.answer? with
      | some r =>
        have hcount := requests_attempt hwait hevent []
        have hpace := pace_attempt delay attempt (s.next url).1 []
        rw [List.append_nil] at hcount hpace
        rw [tries_of_answer hnoting hwait hanswer, hcount, hwaiting, hpace]
        rfl
      | none =>
        rw [tries_of_failure hnoting hwait hanswer, requests_attempt hwait hevent, hwaiting,
          pace_attempt, ih _ _ _ (by omega), paces]

end Waits

/-- Attempts that fail are followed by the ones that are left, if their waits can be waited for. -/
theorem tries_add (hnoting : k.noting = .ok ()) (reason : Option String) {m : Nat}
    (hwaits : ∀ i < m, ∀ now, ∃ waited, c.wait k (attempt + i) now = .ok waited)
    (hfailed : ∀ o ∈ s.outcomes url m, o.answer? = none) (left : Nat) (now : τ) :
    ∃ then_,
      requests (c.tries k url (m + left) attempt reason s now).events =
        m + requests (c.tries k url left (attempt + m)
          (((s.outcomes url m).getLast?.map Outcome.reason).or reason) (s.asked url m) then_).events ∧
      (c.tries k url (m + left) attempt reason s now).ending =
        (c.tries k url left (attempt + m)
          (((s.outcomes url m).getLast?.map Outcome.reason).or reason) (s.asked url m) then_).ending := by
  -- The reason is that of the attempt before, so any reason may stand at the beginning.
  induction m generalizing attempt reason s now with
  | zero => exact ⟨now, by rw [Nat.zero_add, Nat.zero_add]; rfl, by rw [Nat.zero_add]; rfl⟩
  | succ m ih =>
    obtain ⟨hfirst, hrest⟩ := List.forall_mem_cons.mp hfailed
    obtain ⟨waited, hwait⟩ : ∃ waited, c.wait k attempt now = .ok waited := hwaits 0 (by omega) now
    obtain ⟨then_, hrequests, hending⟩ := @ih (attempt + 1) (s.next url).2
      (some (s.next url).1.reason)
      (fun i hi => by rw [Nat.add_assoc, Nat.add_comm 1]; exact hwaits (i + 1) (by omega)) hrest
      (k.arrival attempt (s.next url).1 waited.2)
    have hlast : ((s.outcomes url (m + 1)).getLast?.map Outcome.reason).or reason =
        (((s.next url).2.outcomes url m).getLast?.map Outcome.reason).or
          (some (s.next url).1.reason) := by
      rw [Server.outcomes, List.getLast?_cons]
      cases ((s.next url).2.outcomes url m).getLast? <;> rfl
    have hstep : m + 1 + left = (m + left) + 1 := by omega
    have hnext : attempt + (m + 1) = attempt + 1 + m := by omega
    refine ⟨then_, ?_⟩
    rw [hlast, hstep, hnext, Server.asked, ← hending, tries_of_failure hnoting hwait hfirst,
      requests_attempt hwait (isCall_judge attempt _), hrequests]
    exact ⟨by omega, rfl⟩

section Ends

variable {n : Nat} (hnoting : k.noting = .ok ())
  (hdelay : ∀ i, i + 1 < n → c.settings.baseDelay.times (2 ^ i) = .ok (delay i))
include hnoting hdelay

theorem tries_ends_of_answer {before after : List Outcome} {r : Response}
    (houtcomes : s.outcomes url n = before ++ .answer r :: after)
    (hbefore : ∀ o ∈ before, o.answer? = none) (hstatus : r.status < 500)
    (hsleep : ∀ i < before.length, c.sleep (delay i) = .ok ()) (now : τ) :
    requests (c.tries k url n 1 none s now).events = before.length + 1 ∧
      (c.tries k url n 1 none s now).ending = .answer r := by
  have hlength := congrArg List.length houtcomes
  rw [Server.length_outcomes, List.length_append, List.length_cons] at hlength
  obtain rfl : n = before.length + (after.length + 1) := hlength
  obtain ⟨hfirst, hrest⟩ := List.append_inj ((s.outcomes_add ..).symm.trans houtcomes)
    (s.length_outcomes ..)
  obtain ⟨hnext, -⟩ := List.cons.inj hrest
  have hanswer : ((s.asked url before.length).next url).1.answer? = some r := by
    rw [hnext, answer?_of_lt hstatus]
  have hwaits (i : Nat) (hi : i ≤ before.length) (now : τ) :
      ∃ waited, c.wait k (1 + i) now = .ok waited :=
    wait_of_sleep hdelay (by omega) (fun j hj => hsleep j (by omega)) k now
  obtain ⟨then_, hrequests, hending⟩ := tries_add hnoting none
    (fun i hi => hwaits i (Nat.le_of_lt hi)) (hfirst ▸ hbefore) (after.length + 1) now
  obtain ⟨waited, hwait⟩ := hwaits before.length (Nat.le_refl _) then_
  have hlast := requests_attempt hwait (isCall_judge (1 + before.length)
    ((s.asked url before.length).next url).1) []
  rw [List.append_nil] at hlast
  rw [tries_of_answer hnoting hwait hanswer] at hrequests hending
  exact ⟨by rw [hrequests, hlast]; rfl, hending⟩

/-- Where no answer below 500 comes, all attempts are made, and the last one gives the reason. -/
theorem tries_ends_of_failures (hfailed : ∀ o ∈ s.outcomes url n, o.answer? = none)
    (hsleep : ∀ i, i + 1 < n → c.sleep (delay i) = .ok ()) (now : τ) :
    requests (c.tries k url n 1 none s now).events = n ∧
      (c.tries k url n 1 none s now).ending =
        .gaveUp ((s.outcomes url n).getLast?.map Outcome.reason) := by
  obtain ⟨then_, hrequests, hending⟩ := tries_add hnoting none
    (fun i hi now => wait_of_sleep hdelay (show 1 + i ≤ _ by omega)
      (fun j hj => hsleep j (by omega)) k now) hfailed 0 now
  rw [Nat.add_zero] at hrequests hending
  exact ⟨hrequests, by rw [hending, tries, Option.or_none]⟩

theorem tries_ends_of_refused {m : Nat} (hm : m + 1 < n)
    (hfailed : ∀ o ∈ s.outcomes url (m + 1), o.answer? = none)
    (hsleep : ∀ i < m, c.sleep (delay i) = .ok ()) {cause : Failure}
    (hrefused : c.sleep (delay m) = .error cause) (now : τ) :
    requests (c.tries k url n 1 none s now).events = m + 1 ∧
      (c.tries k url n 1 none s now).ending = .failed cause := by
  obtain ⟨left, rfl⟩ : ∃ left, n = m + 1 + (left + 1) := ⟨n - (m + 2), by omega⟩
  obtain ⟨then_, hrequests, hending⟩ := tries_add hnoting none
    (fun i hi now => wait_of_sleep hdelay (show 1 + i ≤ _ by omega)
      (fun j hj => hsleep j (by omega)) k now) hfailed (left + 1) now
  have hwait : c.wait k (1 + (m + 1)) then_ = .error cause := by
    rw [Nat.add_comm]
    exact wait_of_refused hdelay (by omega) hrefused k then_
  rw [tries, hwait] at hrequests hending
  exact ⟨hrequests, hending⟩

end Ends

/-! ### Requests that the cache does not answer -/

variable {n : Nat}

theorem attempts_of_retries (h : c.settings.retries = .int n) : c.settings.attempts = .ok n := by
  simp [Settings.attempts, h, Value.toInteger, bind, Except.bind, pure, Except.pure]

theorem events_send (hattempts : c.settings.attempts = .ok n) (key : String) :
    (c.send k url key).2.1 = (c.tries k url n 1 none c.server c.clock).events := by
  unfold send
  rw [hattempts]
  dsimp only
  split <;> rfl

theorem send_of_ending_answer (hattempts : c.settings.attempts = .ok n) {r : Response}
    (h : (c.tries k url n 1 none c.server c.clock).ending = .answer r) (key : String) :
    (c.send k url key).1 = .ok r ∧ ∀ other, (c.send k url key).2.2.cache.lookup other =
      if other = key then some ⟨r, (c.send k url key).2.2.clock⟩ else c.cache.lookup other := by
  unfold send
  rw [hattempts]
  dsimp only
  rw [h]
  exact ⟨rfl, fun other => lookup_keep _ key r other⟩

theorem send_of_ending_gaveUp (hattempts : c.settings.attempts = .ok n) {reason : Option String}
    (h : (c.tries k url n 1 none c.server c.clock).ending = .gaveUp reason) (key : String) :
    (c.send k url key).1 = noAnswer c.settings reason ∧ (c.send k url key).2.2.cache = c.cache := by
  unfold send
  rw [hattempts]
  dsimp only
  rw [h]
  exact ⟨rfl, rfl⟩

theorem send_of_ending_failed (hattempts : c.settings.attempts = .ok n) {cause : Failure}
    (h : (c.tries k url n 1 none c.server c.clock).ending = .failed cause) (key : String) :
    (c.send k url key).1 = .error cause ∧ (c.send k url key).2.2.cache = c.cache := by
  unfold send
  rw [hattempts]
  dsimp only
  rw [h]
  exact ⟨rfl, rfl⟩

theorem noAnswer_of_retries {s : Settings} (hretries : s.retries = .int n)
    (hwritable : s.retries.isWritable) (reason : String) :
    noAnswer s (some reason) =
      .ok ⟨0, [], "Request failed after " ++ toString n ++ " attempts: " ++ reason⟩ := by
  have hdisplay : s.retries.display = toString n := by rw [hretries]; rfl
  rw [noAnswer, if_pos hwritable, hdisplay]
  rfl

/-- A request that the cache does not answer is sent up to its first answer below 500, which is kept
with the moment at which it came, and as often as it is to be tried where none comes; then the last
attempt is what is told of, and the cache stays. Before each request but the first there is a wait,
which doubles. Where it cannot be waited for, the request ends with what is wrong, and the cache stays. -/
theorem get_of_retries [Time τ] (c : Client τ) {k : Course τ} (hnoting : k.noting = .ok ())
    (url : String) (headers : Headers) {n : Nat} (hn : 1 ≤ n) (hretries : c.settings.retries = .int n)
    (hwritable : c.settings.retries.isWritable) {delay : Nat → Value}
    (hdelay : ∀ i, i + 1 < n → c.settings.baseDelay.times (2 ^ i) = .ok (delay i))
    (hmiss : ∀ kept, c.cache.lookup (cacheKey url headers) = some kept → c.isFresh kept = .ok false) :
    (∀ before r after, c.server.outcomes url n = before ++ .answer r :: after →
      (∀ o ∈ before, o.answer? = none) → r.status < 500 →
      (∀ i < before.length, c.sleep (delay i) = .ok ()) →
      requests (c.get url headers k).2.1 = before.length + 1 ∧ (c.get url headers k).1 = .ok r ∧
        ∀ key, (c.get url headers k).2.2.cache.lookup key =
          if key = cacheKey url headers then some ⟨r, (c.get url headers k).2.2.clock⟩
          else c.cache.lookup key) ∧
    (∀ before last, c.server.outcomes url n = before ++ [last] →
      (∀ o ∈ before ++ [last], o.answer? = none) →
      (∀ i, i + 1 < n → c.sleep (delay i) = .ok ()) →
      requests (c.get url headers k).2.1 = n ∧
        (c.get url headers k).1 = .ok ⟨0, [],
          "Request failed after " ++ toString n ++ " attempts: " ++ last.reason⟩ ∧
        (c.get url headers k).2.2.cache = c.cache) ∧
    (∀ m cause, m + 1 < n → (∀ o ∈ c.server.outcomes url (m + 1), o.answer? = none) →
      (∀ i < m, c.sleep (delay i) = .ok ()) → c.sleep (delay m) = .error cause →
      requests (c.get url headers k).2.1 = m + 1 ∧ (c.get url headers k).1 = .error cause ∧
        (c.get url headers k).2.2.cache = c.cache) ∧
    pace (c.get url headers k).2.1 =
      .called :: (List.range (requests (c.get url headers k).2.1 - 1)).flatMap
        fun i => [.slept (delay i), .called] := by
  have hattempts := attempts_of_retries hretries
  rw [get_of_stale hmiss, events_send hattempts]
  refine ⟨fun before r after houtcomes hbefore hstatus hsleep => ?_,
    fun before last houtcomes hfailed hsleep => ?_,
    fun m cause hm hfailed hsleep hrefused => ?_, ?_⟩
  · obtain ⟨hcount, hending⟩ :=
      tries_ends_of_answer hnoting hdelay houtcomes hbefore hstatus hsleep c.clock
    obtain ⟨hreply, hcache⟩ := send_of_ending_answer hattempts hending (cacheKey url headers)
    exact ⟨hcount, hreply, hcache⟩
  · rw [← houtcomes] at hfailed
    obtain ⟨hcount, hending⟩ := tries_ends_of_failures hnoting hdelay hfailed hsleep c.clock
    obtain ⟨hreply, hcache⟩ := send_of_ending_gaveUp hattempts hending (cacheKey url headers)
    refine ⟨hcount, ?_, hcache⟩
    rw [hreply, houtcomes, List.getLast?_concat]
    exact noAnswer_of_retries hretries hwritable last.reason
  · obtain ⟨hcount, hending⟩ :=
      tries_ends_of_refused hnoting hdelay hm hfailed hsleep hrefused c.clock
    obtain ⟨hreply, hcache⟩ := send_of_ending_failed hattempts hending (cacheKey url headers)
    exact ⟨hcount, hreply, hcache⟩
  · obtain ⟨m, rfl⟩ : ∃ m, n = m + 1 := ⟨n - 1, by omega⟩
    have hpos := c.requests_tries_pos k url m c.server c.clock
    have hpace := pace_tries hdelay hnoting url none c.server c.clock
      (show 1 + (m + 1) ≤ m + 1 + 1 by omega)
    generalize (c.tries k url (m + 1) 1 none c.server c.clock).events = events at hpos hpace ⊢
    obtain ⟨sent, hsent⟩ : ∃ sent, requests events = sent + 1 := ⟨requests events - 1, by omega⟩
    rw [hpace, hsent, paces_one, Nat.add_sub_cancel]

end Client

namespace Sample

def patient (baseDelay : Value) : Client Float where
  server := ⟨[("slow", [.timeout, .answer ⟨503, [], ""⟩, .answer ⟨200, [], "units"⟩]),
    ("lost", [.answer ⟨503, [], ""⟩, .timeout, .failure "reset"])]⟩
  settings := { baseDelay }
  clock := 0

end Sample

open Sample in
theorem Client.get_of_retries_patient :
    (requests ((patient (.int 2)).get "slow" []).2.1 = 3 ∧
      ((patient (.int 2)).get "slow" []).1 = .ok ⟨200, [], "units"⟩) ∧
    (requests ((patient (.int 2)).get "lost" []).2.1 = 3 ∧
      ((patient (.int 2)).get "lost" []).1 =
        .ok ⟨0, [], "Request failed after 3 attempts: reset"⟩) ∧
    (requests ((patient (.int (-1))).get "slow" []).2.1 = 1 ∧
      ((patient (.int (-1))).get "slow" []).1 = .error .numeral) ∧
    pace ((patient (.int 2)).get "slow" []).2.1 =
      [.called, .slept (.int 2), .called, .slept (.int 4), .called] := by
  have hwritable : (Value.int 3).isWritable := by decide +kernel
  have hdelay (base : Int) : ∀ i, i + 1 < 3 →
      (Value.int base).times (2 ^ i) = .ok (.int (base * (2 ^ i : Nat))) := fun _ _ => rfl
  have hall (base : Int) (url : String) := Client.get_of_retries (patient (.int base)) (k := {}) rfl url
    [] (n := 3) (by decide) rfl hwritable (hdelay base) fun kept hkept => absurd hkept nofun
  have hsleep : ∀ i < 2, (patient (.int 2)).sleep (.int (2 * (2 ^ i : Nat))) = .ok ()
    | 0, _ => rfl
    | 1, _ => rfl
  obtain ⟨hanswered, -, -, hpace⟩ := hall 2 "slow"
  obtain ⟨-, hfailed, -⟩ := hall 2 "lost"
  obtain ⟨-, -, hrefused, -⟩ := hall (-1) "slow"
  obtain ⟨hcount, hreply, -⟩ := hanswered [.timeout, .answer ⟨503, [], ""⟩] ⟨200, [], "units"⟩ [] rfl
    (by decide) (by decide) hsleep
  obtain ⟨hcount', hreply', -⟩ := hfailed [.answer ⟨503, [], ""⟩, .timeout] (.failure "reset") rfl
    (by decide) fun i hi => hsleep i (by omega)
  obtain ⟨hcount'', hreply'', -⟩ := hrefused 0 .numeral (by decide) (by decide) nofun rfl
  rw [hcount] at hpace
  exact ⟨⟨hcount, hreply⟩, ⟨hcount', hreply'⟩, ⟨hcount'', hreply''⟩, hpace⟩

open Sample in
/-- Attempts are left over where a delay is not one that can be waited for. -/
theorem Client.requests_ne_retries : ¬∀ base : Value,
    (∀ o ∈ (patient base).server.outcomes "lost" 3, o.answer? = none) →
      requests ((patient base).get "lost" []).2.1 = 3 := fun hall =>
  absurd (hall (.int (-1)) (by decide)) (by decide)

end Provision.Http
