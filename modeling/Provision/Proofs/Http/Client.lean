import Mathlib.Data.List.Basic
import Provision.Http.Client
import Provision.Proofs.Failure

namespace Provision.Http

def Server.Agrees (urls : String → Prop) (s t : Server) : Prop :=
  ∀ url, ¬urls url → s.scripts.lookup url = t.scripts.lookup url

/-- Clients that have the same for every address but some, as far as they are asked with certain
headers. Their clocks may differ. -/
structure Client.Agrees {τ : Type} (headers : Headers) (urls : String → Prop) (c d : Client τ) :
    Prop where
  server : c.server.Agrees urls d.server
  settings : c.settings = d.settings
  sleep : c.sleep = d.sleep
  cache : ∀ url, ¬urls url →
    c.cache.lookup (cacheKey url headers) = d.cache.lookup (cacheKey url headers)

structure Course.Stands {τ : Type} (k : Course τ) : Prop where
  awake : ∀ delay now, k.awake delay now = now
  arrival : ∀ attempt o now, k.arrival attempt o now = now

theorem Course.stands_of_noting {τ : Type} (noting : Except Failure Unit) :
    ({ noting } : Course τ).Stands :=
  ⟨fun _ _ => rfl, fun _ _ _ => rfl⟩

theorem lookup_replace {α β : Type} [DecidableEq α] (a : α) (b : β) (xs : List (α × β)) (c : α) :
    ((a, b) :: xs.filter fun x => x.1 != a).lookup c = if c = a then some b else xs.lookup c := by
  by_cases hc : c = a
  · simp [hc]
  · rw [if_neg hc, List.lookup_cons, beq_false_of_ne hc]
    induction xs with
    | nil => rfl
    | cons x xs ih =>
      obtain ⟨k, y⟩ := x
      by_cases hk : k = a
      · have hck : (c == k) = false := beq_false_of_ne (hk ▸ hc)
        rw [List.filter_cons_of_neg (by simp [hk]), List.lookup_cons, hck]
        exact ih
      · rw [List.filter_cons_of_pos (by simp [hk]), List.lookup_cons, List.lookup_cons]
        cases c == k with
        | true => rfl
        | false => exact ih

theorem cacheKey_injective (headers : Headers) :
    Function.Injective fun url => cacheKey url headers := by
  intro url url' h
  simpa only [cacheKey, String.append_left_inj, String.append_right_inj] using h

variable {urls : String → Prop} {url : String}

namespace Server

theorem lookup_setScript (s : Server) (url : String) (outcomes : List Outcome) (other : String) :
    (s.setScript url outcomes).scripts.lookup other =
      if other = url then some outcomes else s.scripts.lookup other :=
  lookup_replace url outcomes s.scripts other

theorem Agrees.trans {s t u : Server} (hst : s.Agrees urls t) (htu : t.Agrees urls u) :
    s.Agrees urls u :=
  fun url hurl => (hst url hurl).trans (htu url hurl)

theorem Agrees.setScript {s t : Server} (h : s.Agrees urls t) (url : String)
    (outcomes : List Outcome) : (s.setScript url outcomes).Agrees urls (t.setScript url outcomes) := by
  intro other hother
  rw [lookup_setScript, lookup_setScript, h other hother]

theorem Agrees.next {s t : Server} (h : s.Agrees urls t) (hurl : ¬urls url) :
    (s.next url).1 = (t.next url).1 ∧ (s.next url).2.Agrees urls (t.next url).2 := by
  unfold Server.next
  rw [h url hurl]
  split
  · exact ⟨rfl, h⟩
  · exact ⟨rfl, h⟩
  · exact ⟨rfl, h⟩
  · exact ⟨rfl, h.setScript url _⟩

theorem agrees_next (s : Server) (hurl : urls url) : s.Agrees urls (s.next url).2 := by
  unfold Server.next
  split
  · exact fun _ _ => rfl
  · exact fun _ _ => rfl
  · exact fun _ _ => rfl
  · intro other hother
    have hne : other ≠ url := fun h => hother (h ▸ hurl)
    rw [lookup_setScript, if_neg hne]

end Server

namespace Client

variable {τ : Type} {headers : Headers} {c d : Client τ} {k : Course τ}

theorem wait_congr (hsettings : c.settings = d.settings) (hsleep : c.sleep = d.sleep)
    (k : Course τ) (attempt : Nat) (now : τ) : c.wait k attempt now = d.wait k attempt now := by
  unfold wait
  rw [hsettings, hsleep]

theorem tries_of_agrees (hsettings : c.settings = d.settings) (hsleep : c.sleep = d.sleep)
    (k : Course τ) (hurl : ¬urls url) (left attempt : Nat) (reason : Option String) {s t : Server}
    (h : s.Agrees urls t) (now : τ) :
    (c.tries k url left attempt reason s now).events =
        (d.tries k url left attempt reason t now).events ∧
      (c.tries k url left attempt reason s now).ending =
        (d.tries k url left attempt reason t now).ending ∧
      (c.tries k url left attempt reason s now).clock =
        (d.tries k url left attempt reason t now).clock ∧
      (c.tries k url left attempt reason s now).server.Agrees urls
        (d.tries k url left attempt reason t now).server := by
  induction left generalizing attempt reason s t now with
  | zero => exact ⟨rfl, rfl, rfl, h⟩
  | succ left ih =>
    obtain ⟨houtcome, hnext⟩ := h.next hurl
    unfold tries
    rw [wait_congr hsettings hsleep]
    obtain cause | ⟨waiting, now⟩ := d.wait k attempt now
    · exact ⟨rfl, rfl, rfl, h⟩
    · dsimp only
      rw [houtcome]
      obtain ⟨event, r | reason⟩ := judge attempt (t.next url).1 <;> obtain cause | - := k.noting
      · exact ⟨rfl, rfl, rfl, hnext⟩
      · exact ⟨rfl, rfl, rfl, hnext⟩
      · exact ⟨rfl, rfl, rfl, hnext⟩
      · obtain ⟨hevents, hending, hclock, hserver⟩ := ih (attempt + 1) (some reason) hnext
          (k.arrival attempt (t.next url).1 now)
        dsimp only
        rw [hevents, hending, hclock]
        exact ⟨rfl, rfl, rfl, hserver⟩

/-- Where every delay can be waited for and all can be noted, trying ends with an answer or with no
attempt left. -/
theorem tries_ne_failed (hnoting : k.noting = .ok ()) {left attempt : Nat}
    (h : ∀ n < attempt + left, ∀ now, ∃ waited, c.wait k n now = .ok waited) (url : String)
    (reason : Option String) (s : Server) (now : τ) (cause : Failure) :
    (c.tries k url left attempt reason s now).ending ≠ .failed cause := by
  induction left generalizing attempt reason s now with
  | zero => exact nofun
  | succ left ih =>
    obtain ⟨⟨waiting, now⟩, hwaiting⟩ := h attempt (by omega) now
    unfold tries
    rw [hwaiting, hnoting]
    dsimp only
    obtain ⟨event, r | reason⟩ := judge attempt (s.next url).1
    · exact nofun
    · exact ih (fun n hn => h n (by omega)) (some reason) (s.next url).2 _

theorem agrees_tries (c : Client τ) (k : Course τ) (hurl : urls url) (left attempt : Nat)
    (reason : Option String) (s : Server) (now : τ) :
    s.Agrees urls (c.tries k url left attempt reason s now).server := by
  induction left generalizing attempt reason s now with
  | zero => exact fun _ _ => rfl
  | succ left ih =>
    unfold tries
    obtain cause | ⟨waiting, now⟩ := c.wait k attempt now
    · exact fun _ _ => rfl
    · dsimp only
      obtain ⟨event, r | reason⟩ := judge attempt (s.next url).1 <;> obtain cause | - := k.noting
      · exact s.agrees_next hurl
      · exact s.agrees_next hurl
      · exact s.agrees_next hurl
      · exact (s.agrees_next hurl).trans (ih (attempt + 1) (some reason) (s.next url).2 _)

theorem cases_of_wait {attempt : Nat} {now : τ} {waited : List Event × τ}
    (h : c.wait k attempt now = .ok waited) : waited = ([], now) ∨
      ∃ delay, c.sleep delay = .ok () ∧ waited = ([.slept delay], k.awake delay now) := by
  unfold wait at h
  obtain ⟨_ | delay, -, h⟩ := bind_eq_ok_iff.mp h
  · cases h
    exact Or.inl rfl
  · obtain ⟨_, hsleep, h⟩ := bind_eq_ok_iff.mp h
    cases h
    exact Or.inr ⟨delay, hsleep, rfl⟩

theorem clock_tries_of_stands (hk : k.Stands) (c : Client τ) (url : String) (left attempt : Nat)
    (reason : Option String) (s : Server) (now : τ) :
    (c.tries k url left attempt reason s now).clock = now := by
  induction left generalizing attempt reason s with
  | zero => rfl
  | succ left ih =>
    unfold tries
    cases hwait : c.wait k attempt now with
    | error cause => rfl
    | ok waited =>
      obtain ⟨waiting, t⟩ := waited
      obtain rfl : t = now := by
        obtain heq | ⟨delay, -, heq⟩ := cases_of_wait hwait
        · exact congrArg Prod.snd heq
        · exact (congrArg Prod.snd heq).trans (hk.awake delay now)
      dsimp only
      rw [hk.arrival]
      obtain ⟨event, r | reason⟩ := judge attempt (s.next url).1 <;> obtain cause | - := k.noting
      · rfl
      · rfl
      · rfl
      · exact ih (attempt + 1) (some reason) (s.next url).2

theorem agrees_refl (c : Client τ) : c.Agrees headers urls c :=
  ⟨fun _ _ => rfl, rfl, rfl, fun _ _ => rfl⟩

theorem Agrees.symm (h : c.Agrees headers urls d) : d.Agrees headers urls c :=
  ⟨fun url hurl => (h.server url hurl).symm, h.settings.symm, h.sleep.symm,
    fun url hurl => (h.cache url hurl).symm⟩

theorem Agrees.trans {e : Client τ} (hcd : c.Agrees headers urls d) (hde : d.Agrees headers urls e) :
    c.Agrees headers urls e :=
  ⟨hcd.server.trans hde.server, hcd.settings.trans hde.settings, hcd.sleep.trans hde.sleep,
    fun url hurl => (hcd.cache url hurl).trans (hde.cache url hurl)⟩

theorem lookup_keep (c : Client τ) (key : String) (r : Response) (other : String) :
    (c.keep key r).cache.lookup other =
      if other = key then some ⟨r, c.clock⟩ else c.cache.lookup other :=
  lookup_replace key _ c.cache other

theorem Agrees.keep (h : c.Agrees headers urls d) (hclock : c.clock = d.clock) (key : String)
    (r : Response) : (c.keep key r).Agrees headers urls (d.keep key r) := by
  refine ⟨h.server, h.settings, h.sleep, fun url hurl => ?_⟩
  rw [lookup_keep, lookup_keep, hclock, h.cache url hurl]

theorem agrees_keep (c : Client τ) (hurl : urls url) (r : Response) :
    c.Agrees headers urls (c.keep (cacheKey url headers) r) := by
  refine ⟨fun _ _ => rfl, rfl, rfl, fun other hother => ?_⟩
  have hne : cacheKey other headers ≠ cacheKey url headers := by
    intro h
    exact hother (cacheKey_injective headers h ▸ hurl)
  rw [lookup_keep, if_neg hne]

theorem Agrees.send (h : c.Agrees headers urls d) (hclock : c.clock = d.clock) (k : Course τ)
    (hurl : ¬urls url) (key : String) :
    (c.send k url key).1 = (d.send k url key).1 ∧ (c.send k url key).2.1 = (d.send k url key).2.1 ∧
      (c.send k url key).2.2.Agrees headers urls (d.send k url key).2.2 ∧
      (c.send k url key).2.2.clock = (d.send k url key).2.2.clock := by
  have htries (n : Nat) := tries_of_agrees h.settings h.sleep k hurl n 1 none h.server c.clock
  obtain ⟨s, settings, cached, now, sleep⟩ := c
  obtain ⟨t, _, kept, _, _⟩ := d
  obtain ⟨hserver, rfl, rfl, hcache⟩ := h
  obtain rfl : now = _ := hclock
  unfold Client.send
  dsimp only at htries ⊢
  cases settings.attempts with
  | error f => exact ⟨rfl, rfl, ⟨hserver, rfl, rfl, hcache⟩, rfl⟩
  | ok n =>
    obtain ⟨hevents, hending, htime, hleft⟩ := htries n
    dsimp only
    generalize tries _ k url n 1 none s now = x at hevents hending htime hleft ⊢
    generalize tries _ k url n 1 none t now = z at hevents hending htime hleft ⊢
    have hclients : Agrees headers urls (⟨x.server, settings, cached, x.clock, sleep⟩ : Client τ)
        ⟨z.server, settings, kept, z.clock, sleep⟩ := ⟨hleft, rfl, rfl, hcache⟩
    rw [hevents, hending]
    cases z.ending with
    | answer r => exact ⟨rfl, rfl, hclients.keep htime key r, htime⟩
    | gaveUp reason => exact ⟨rfl, rfl, hclients, htime⟩
    | failed cause => exact ⟨rfl, rfl, hclients, htime⟩

theorem agrees_send (c : Client τ) (k : Course τ) (hurl : urls url) :
    c.Agrees headers urls (c.send k url (cacheKey url headers)).2.2 := by
  unfold Client.send
  cases c.settings.attempts with
  | error f => exact c.agrees_refl
  | ok n =>
    have hserver := agrees_tries c k hurl n 1 none c.server c.clock
    have hclient : c.Agrees headers urls
        { c with
          server := (c.tries k url n 1 none c.server c.clock).server
          clock := (c.tries k url n 1 none c.server c.clock).clock } :=
      ⟨hserver, rfl, rfl, fun _ _ => rfl⟩
    dsimp only
    cases (c.tries k url n 1 none c.server c.clock).ending with
    | answer r => exact hclient.trans (agrees_keep _ hurl r)
    | gaveUp reason => exact hclient
    | failed cause => exact hclient

theorem clock_send_of_stands (hk : k.Stands) (c : Client τ) (url key : String) :
    (c.send k url key).2.2.clock = c.clock := by
  unfold send
  cases c.settings.attempts with
  | error f => rfl
  | ok n =>
    have htries := clock_tries_of_stands hk c url n 1 none c.server c.clock
    dsimp only
    split <;> exact htries

theorem wait_returns {attempt : Nat} {delay : Option Value}
    (hdelay : delay? c.settings.baseDelay attempt = .ok delay) (hsleep : ∀ d ∈ delay, c.sleep d = .ok ())
    (k : Course τ) (now : τ) : ∃ waited, c.wait k attempt now = .ok waited := by
  unfold wait
  rw [hdelay]
  cases delay with
  | none => exact ⟨_, rfl⟩
  | some d =>
    refine ⟨([.slept d], k.awake d now), ?_⟩
    change (c.sleep d >>= fun _ => _) = _
    rw [hsleep d rfl]
    rfl

variable [Time τ]

/-- A request is answered alike at the same time by clients that have the same for its address, and
they still have the same for the others. -/
theorem Agrees.get (h : c.Agrees headers urls d) (hclock : c.clock = d.clock) (k : Course τ)
    (hurl : ¬urls url) :
    (c.get url headers k).1 = (d.get url headers k).1 ∧
      (c.get url headers k).2.1 = (d.get url headers k).2.1 ∧
      (c.get url headers k).2.2.Agrees headers urls (d.get url headers k).2.2 ∧
      (c.get url headers k).2.2.clock = (d.get url headers k).2.2.clock := by
  unfold Client.get
  dsimp only
  rw [h.cache url hurl]
  cases d.cache.lookup (cacheKey url headers) with
  | none => exact h.send hclock k hurl _
  | some kept =>
    have hfresh : c.isFresh kept = d.isFresh kept := by
      unfold isFresh
      rw [hclock, h.settings]
    dsimp only
    rw [hfresh]
    obtain f | _ | _ := d.isFresh kept
    · exact ⟨rfl, rfl, h, hclock⟩
    · exact h.send hclock k hurl _
    · exact ⟨rfl, rfl, h, hclock⟩

/-- A request changes only what the client has for its address, and the clock. -/
theorem agrees_get (c : Client τ) (k : Course τ) (hurl : urls url) :
    c.Agrees headers urls (c.get url headers k).2.2 := by
  unfold Client.get
  dsimp only
  cases c.cache.lookup (cacheKey url headers) with
  | none => exact c.agrees_send k hurl
  | some kept =>
    dsimp only
    obtain f | _ | _ := c.isFresh kept
    · exact c.agrees_refl
    · exact c.agrees_send k hurl
    · exact c.agrees_refl

theorem clock_get_of_stands (hk : k.Stands) (c : Client τ) (url : String) (headers : Headers) :
    (c.get url headers k).2.2.clock = c.clock := by
  unfold get
  dsimp only
  split
  · exact clock_send_of_stands hk c url _
  · split
    · rfl
    · exact clock_send_of_stands hk c url _
    · rfl

/-- A client by which every request comes to an answer, or to what stands for one. -/
structure Usable (c : Client τ) : Prop where
  attempts : ∃ n, c.settings.attempts = .ok n ∧
    ∀ attempt ≤ n, ∃ delay, delay? c.settings.baseDelay attempt = .ok delay ∧
      ∀ d ∈ delay, c.sleep d = .ok ()
  retries : c.settings.retries.isWritable
  cacheTtl : ∀ span : τ, ∃ b, Time.isShorter span c.settings.cacheTtl = .ok b

theorem send_returns (h : c.Usable) (hnoting : k.noting = .ok ()) (url key : String) :
    ∃ r, (c.send k url key).1 = .ok r := by
  obtain ⟨n, hn, hdelays⟩ := h.attempts
  have hwaits : ∀ attempt < 1 + n, ∀ now, ∃ waited, c.wait k attempt now = .ok waited := by
    intro attempt hattempt now
    obtain ⟨delay, hdelay, hsleep⟩ := hdelays attempt (by omega)
    exact wait_returns hdelay hsleep k now
  have hends := tries_ne_failed hnoting hwaits url none c.server c.clock
  unfold send
  rw [hn]
  dsimp only
  cases hending : (c.tries k url n 1 none c.server c.clock).ending with
  | answer r => exact ⟨r, rfl⟩
  | gaveUp reason => exact ⟨_, if_pos h.retries⟩
  | failed cause => exact absurd hending (hends cause)

/-- Whatever a server does, a request is answered, if only by what stands for an answer. -/
theorem get_returns (h : c.Usable) (hnoting : k.noting = .ok ()) (url : String) (headers : Headers) :
    ∃ r, (c.get url headers k).1 = .ok r := by
  unfold get
  dsimp only
  split
  · exact send_returns h hnoting url _
  · rename_i kept _
    obtain ⟨b, hb⟩ := h.cacheTtl (Time.since c.clock kept.received)
    have hfresh : c.isFresh kept = .ok b := hb
    rw [hfresh]
    cases b with
    | true => exact ⟨kept.response, by rw [hnoting]; rfl⟩
    | false => exact send_returns h hnoting url _

end Client

end Provision.Http
