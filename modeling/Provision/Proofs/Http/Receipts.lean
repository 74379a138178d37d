import Mathlib.Algebra.Order.Field.Rat
import Mathlib.Algebra.Order.Group.Int
import Mathlib.Order.WithBot
import Provision.Decimal.Dyadic
import Provision.Proofs.Http.Attempts
import Provision.Proofs.Http.Key

namespace Provision.Http

/-! ### Exact time -/

abbrev Extent := WithBot (WithTop ℚ)

/-- The rational number that a floating point number stands for, if it is finite. Nothing is below
one that is undefined. -/
def extentOfFloat (x : Float) : Extent :=
  match Decimal.ofFloat x with
  | (_, .zero) => ((0 : ℚ) : WithTop ℚ)
  | (negative, .finite d) =>
    (((if negative then -1 else 1) * d.mantissa * (2 : ℚ) ^ d.exponent : ℚ) : WithTop ℚ)
  | (negative, .infinite) => if negative then ⊥ else (⊤ : WithTop ℚ)
  | (_, .undefined) => ⊥

def extent? : Value → Option Extent
  | .bool b => some (((if b then 1 else 0 : ℚ) : WithTop ℚ))
  | .int i => some (((i : ℚ) : WithTop ℚ))
  | .float x => some (extentOfFloat x)
  | _ => none

instance : Time ℚ where
  since now then_ := now - then_
  isShorter span v :=
    match extent? v with
    | some extent => .ok (decide (((span : WithTop ℚ) : Extent) < extent))
    | none => .error .wrongType

theorem isShorter_of_extent {v : Value} {extent : Extent} (h : extent? v = some extent) (span : ℚ) :
    Time.isShorter span v = .ok (decide (((span : WithTop ℚ) : Extent) < extent)) := by
  simp [Time.isShorter, h]

/-! ### Histories -/

/-- What can be set about requests, such that one is tried at least once and its answer is kept for
some span. -/
structure Tunables where
  settings : Settings := {}
  extra : Nat
  attempts : settings.attempts = .ok (extra + 1) := by rfl
  lifetime : Extent
  cacheTtl : extent? settings.cacheTtl = some lifetime := by rfl

/-- What came of an attempt, and when. -/
structure Receipt where
  url : String
  headers : HeaderMap
  outcome : Outcome
  moment : ℚ

def Receipt.answer? (url : String) (h : HeaderMap) (r : Receipt) : Option (Kept ℚ) :=
  if url = r.url ∧ h.Same r.headers then Client.kept? (r.outcome, r.moment) else none

/-- The most recent answer below 500 to a request. -/
def latest? (url : String) (h : HeaderMap) (receipts : List Receipt) : Option (Kept ℚ) :=
  receipts.findSome? (Receipt.answer? url h)

/-- A client, and what it has received since its cache was cleared, the most recent first. -/
structure Session where
  tunables : Tunables
  server : Server := {}
  clock : ℚ
  cache : List (String × Kept ℚ) := []
  sleep : Value → Except Failure Unit := Value.checkWait
  receipts : List Receipt := []

inductive Act where
  | get (url : String) (headers : HeaderMap) (course : Course ℚ)
  | clear
  | setClock (now : ℚ)
  | configure (tunables : Tunables)
  | serve (server : Server)

def Act.IsNoted : Act → Prop
  | .get _ _ k => k.noting = .ok ()
  | .clear | .setClock _ | .configure _ | .serve _ => True

namespace Session

variable {s : Session} {url : String} {h : HeaderMap} {k : Course ℚ}

def client (s : Session) : Client ℚ where
  server := s.server
  settings := s.tunables.settings
  cache := s.cache
  clock := s.clock
  sleep := s.sleep

abbrev call (s : Session) (url : String) (h : HeaderMap) (k : Course ℚ) :
    Except Failure Response × List Event × Client ℚ :=
  s.client.get url h.headers k

def arrivals (s : Session) (url : String) (h : HeaderMap) (k : Course ℚ) : List (Outcome × ℚ) :=
  s.client.arrivals k url 1 (requests (s.call url h k).2.1) s.server s.clock

def step (s : Session) : Act → Session
  | .get url h k =>
    { s with
      server := (s.call url h k).2.2.server
      clock := (s.call url h k).2.2.clock
      cache := (s.call url h k).2.2.cache
      receipts := (s.arrivals url h k).reverse.map (fun a => ⟨url, h, a.1, a.2⟩) ++ s.receipts }
  | .clear => { s with cache := s.client.clearCache.cache, receipts := [] }
  | .setClock now => { s with clock := now }
  | .configure tunables => { s with tunables := tunables }
  | .serve server => { s with server := server }

def after (s : Session) (acts : List Act) : Session :=
  acts.foldl step s

def IsYoung (s : Session) (kept : Kept ℚ) : Prop :=
  (((s.clock - kept.received : ℚ) : WithTop ℚ) : Extent) < s.tunables.lifetime

instance (kept : Kept ℚ) : Decidable (s.IsYoung kept) :=
  inferInstanceAs (Decidable (_ < s.tunables.lifetime))

theorem isFresh_client (s : Session) (kept : Kept ℚ) :
    s.client.isFresh kept = .ok (decide (s.IsYoung kept)) :=
  isShorter_of_extent s.tunables.cacheTtl _

theorem call_of_isYoung (hnoting : k.noting = .ok ()) {kept : Kept ℚ}
    (hkept : s.cache.lookup (cacheKey url h.headers) = some kept) (hyoung : s.IsYoung kept) :
    s.call url h k = (.ok kept.response, [.hit], s.client) :=
  Client.get_of_fresh hnoting hkept (by rw [isFresh_client, decide_eq_true hyoung])

/-- Where no request is sent, the cache has not changed; else the latest answer below 500 that came is
kept for it. -/
theorem cache_call (s : Session) (hnoting : k.noting = .ok ()) (url : String) (h : HeaderMap) :
    (s.call url h k).2.2.cache =
      ((s.arrivals url h k).reverse.findSome? Client.kept?).elim s.cache fun kept =>
        (cacheKey url h.headers, kept) :: s.cache.filter fun e => e.1 != cacheKey url h.headers := by
  by_cases hyoung : ∃ kept, s.cache.lookup (cacheKey url h.headers) = some kept ∧ s.IsYoung kept
  · obtain ⟨kept, hkept, hyoung⟩ := hyoung
    unfold arrivals
    rw [call_of_isYoung hnoting hkept hyoung]
    rfl
  · have hsend : s.call url h k = s.client.send k url (cacheKey url h.headers) :=
      Client.get_of_stale fun kept hkept => by
        rw [isFresh_client, decide_eq_false fun hyoung' => hyoung ⟨kept, hkept, hyoung'⟩]
    unfold arrivals
    rw [hsend]
    exact s.client.cache_send hnoting url (cacheKey url h.headers)

theorem requests_call_eq_zero_iff : requests (s.call url h k).2.1 = 0 ↔
    ∃ kept, s.cache.lookup (cacheKey url h.headers) = some kept ∧ s.IsYoung kept := by
  have hget := Client.requests_get_eq_zero_iff (c := s.client) s.tunables.attempts
    (fun span => ⟨_, isShorter_of_extent s.tunables.cacheTtl span⟩) url h.headers k
  simp only [isFresh_client, Except.ok.injEq, decide_eq_true_eq] at hget
  exact hget

/-- The answers that a session keeps are the latest ones it has received. -/
def IsCoherent (s : Session) : Prop :=
  ∀ url h, s.cache.lookup (cacheKey url h.headers) = latest? url h s.receipts

theorem latest?_append (receipts receipts' : List Receipt) :
    latest? url h (receipts ++ receipts') = (latest? url h receipts).or (latest? url h receipts') :=
  List.findSome?_append

theorem latest?_receipts (url' : String) (h' : HeaderMap) (arrivals : List (Outcome × ℚ)) :
    latest? url' h' (arrivals.map fun a => ⟨url, h, a.1, a.2⟩) =
      if url' = url ∧ h'.Same h then arrivals.findSome? Client.kept? else none := by
  induction arrivals with
  | nil => simp [latest?]
  | cons a as ih =>
    rw [latest?, List.map_cons, List.findSome?_cons, ← latest?, ih, List.findSome?_cons]
    unfold Receipt.answer?
    by_cases hsame : url' = url ∧ h'.Same h
    · simp only [if_pos hsame]
    · simp only [if_neg hsame]

theorem lookup_step_get (s : Session) (hnoting : k.noting = .ok ()) (url : String) (h : HeaderMap)
    (key : String) :
    (s.step (.get url h k)).cache.lookup key =
      (if key = cacheKey url h.headers then
        (s.arrivals url h k).reverse.findSome? Client.kept?
      else none).or (s.cache.lookup key) := by
  have hcache : (s.step (.get url h k)).cache = _ := s.cache_call hnoting url h
  rw [hcache]
  cases (s.arrivals url h k).reverse.findSome? Client.kept? with
  | none => simp
  | some kept =>
    rw [Option.elim_some, lookup_replace]
    split <;> rfl

/-- A request makes the latest answer that came of it the one that is kept. -/
theorem IsCoherent.step_get (hs : s.IsCoherent) (hnoting : k.noting = .ok ()) (url : String)
    (h : HeaderMap) : (s.step (.get url h k)).IsCoherent := by
  intro url' h'
  have hreceipts : (s.step (.get url h k)).receipts =
      (s.arrivals url h k).reverse.map (fun a => ⟨url, h, a.1, a.2⟩) ++ s.receipts := rfl
  rw [hreceipts, latest?_append, latest?_receipts, lookup_step_get s hnoting, hs url' h']
  simp only [cacheKey_eq_iff]

theorem IsCoherent.step (hs : s.IsCoherent) {act : Act} (hact : act.IsNoted) :
    (s.step act).IsCoherent := by
  cases act with
  | get url h k => exact hs.step_get hact url h
  | clear => exact fun _ _ => rfl
  | setClock now => exact hs
  | configure tunables => exact hs
  | serve server => exact hs

theorem IsCoherent.after (hs : s.IsCoherent) {acts : List Act} (hacts : ∀ act ∈ acts, act.IsNoted) :
    (s.after acts).IsCoherent := by
  induction acts generalizing s with
  | nil => exact hs
  | cons act acts ih =>
    obtain ⟨hact, hacts⟩ := List.forall_mem_cons.mp hacts
    exact ih (hs.step hact) hacts

def KeepsAnswers (s : Session) : Prop :=
  ∀ entry ∈ s.cache, entry.2.response.status < 500

theorem status_of_kept? {a : Outcome × ℚ} {kept : Kept ℚ} (h : Client.kept? a = some kept) :
    kept.response.status < 500 := by
  obtain ⟨o, moment⟩ := a
  obtain ⟨r, hr, rfl⟩ := Option.map_eq_some_iff.mp h
  cases o with
  | timeout | failure reason => cases hr
  | answer r' =>
    unfold Outcome.answer? at hr
    dsimp only at hr
    split at hr
    · cases hr
    · cases hr
      dsimp only
      omega

theorem KeepsAnswers.step (hs : s.KeepsAnswers) {act : Act} (hact : act.IsNoted) :
    (s.step act).KeepsAnswers := by
  cases act with
  | get url h k =>
    have hcache : (s.step (.get url h k)).cache = _ := s.cache_call hact url h
    unfold KeepsAnswers
    rw [hcache]
    cases hanswer : (s.arrivals url h k).reverse.findSome? Client.kept? with
    | none => exact hs
    | some kept =>
      obtain ⟨a, -, ha⟩ := List.exists_of_findSome?_eq_some hanswer
      refine List.forall_mem_cons.mpr ⟨status_of_kept? ha, fun entry hentry => ?_⟩
      exact hs entry (List.mem_of_mem_filter hentry)
  | clear => exact nofun
  | setClock now => exact hs
  | configure tunables => exact hs
  | serve server => exact hs

theorem KeepsAnswers.after (hs : s.KeepsAnswers) {acts : List Act}
    (hacts : ∀ act ∈ acts, act.IsNoted) : (s.after acts).KeepsAnswers := by
  induction acts generalizing s with
  | nil => exact hs
  | cons act acts ih =>
    obtain ⟨hact, hacts⟩ := List.forall_mem_cons.mp hacts
    exact ih (hs.step hact) hacts

theorem cache_call_of_failed (hnoting : k.noting = .ok ())
    (hfailed : ∀ a ∈ s.arrivals url h k, a.1.answer? = none) :
    (s.call url h k).2.2.cache = s.cache := by
  have hnone : (s.arrivals url h k).reverse.findSome? Client.kept? = none := by
    refine List.findSome?_eq_none_iff.mpr fun a ha => ?_
    rw [Client.kept?, hfailed a (List.mem_reverse.mp ha), Option.map_none]
  rw [cache_call s hnoting, hnone, Option.elim_none]

theorem lookup_step_of_not_same (hnoting : k.noting = .ok ()) {url' : String} {h' : HeaderMap}
    (hother : ¬(url' = url ∧ h'.Same h)) :
    (s.step (.get url h k)).cache.lookup (cacheKey url' h'.headers) =
      s.cache.lookup (cacheKey url' h'.headers) := by
  rw [lookup_step_get s hnoting, if_neg (mt cacheKey_eq_iff.mp hother), Option.none_or]

/-- A request is answered at a moment as it would be without one for another address before. -/
theorem call_step_of_ne (hnoting : k.noting = .ok ()) {url' : String} (hne : url' ≠ url)
    (h h' : HeaderMap) (k' : Course ℚ) (now : ℚ) :
    (((s.step (.get url h k)).step (.setClock now)).call url' h' k').1 =
        ((s.step (.setClock now)).call url' h' k').1 ∧
      (((s.step (.get url h k)).step (.setClock now)).call url' h' k').2.1 =
        ((s.step (.setClock now)).call url' h' k').2.1 := by
  have hframe : s.client.Agrees h.headers (· = url) (s.call url h k).2.2 := s.client.agrees_get k rfl
  have hagrees : ((s.step (.get url h k)).step (.setClock now)).client.Agrees h'.headers (· = url)
      (s.step (.setClock now)).client :=
    ⟨fun other hother => (hframe.server other hother).symm, rfl, rfl, fun other hother =>
      lookup_step_of_not_same hnoting fun hsame => hother hsame.1⟩
  obtain ⟨hreply, hevents, -⟩ := hagrees.get rfl k' hne
  exact ⟨hreply, hevents⟩

end Session

/-- Over any history in which all that happens can be noted, a request is spared if and only if the most
recent answer below 500 to the same request since the cache was cleared has come less than the current
lifetime ago, and then it is that answer that is given. Other outcomes are never kept and leave what is
kept in its place, and so do requests with other addresses or headers. -/
theorem spared_iff_latest_isYoung (tunables : Tunables) (server : Server) (clock : ℚ)
    (sleep : Value → Except Failure Unit) {acts : List Act} (hacts : ∀ act ∈ acts, act.IsNoted)
    (url : String) (h : HeaderMap) {k : Course ℚ} (hnoting : k.noting = .ok ()) :
    let s := Session.after { tunables, server, clock, sleep } acts
    (requests (s.call url h k).2.1 = 0 ↔
      ∃ kept, latest? url h s.receipts = some kept ∧ s.IsYoung kept) ∧
    (∀ kept, latest? url h s.receipts = some kept → s.IsYoung kept →
      s.call url h k = (.ok kept.response, [.hit], s.client)) ∧
    s.cache.lookup (cacheKey url h.headers) = latest? url h s.receipts ∧
    s.KeepsAnswers ∧
    ((∀ a ∈ s.arrivals url h k, a.1.answer? = none) → (s.step (.get url h k)).cache = s.cache) ∧
    (∀ (url' : String) (h' : HeaderMap), ¬(url' = url ∧ h'.Same h) →
      (s.step (.get url h k)).cache.lookup (cacheKey url' h'.headers) =
        s.cache.lookup (cacheKey url' h'.headers)) ∧
    (∀ (url' : String) (h' : HeaderMap) (k' : Course ℚ) (now : ℚ), url' ≠ url →
      (((s.step (.get url h k)).step (.setClock now)).call url' h' k').1 =
          ((s.step (.setClock now)).call url' h' k').1 ∧
        (((s.step (.get url h k)).step (.setClock now)).call url' h' k').2.1 =
          ((s.step (.setClock now)).call url' h' k').2.1) := by
  intro s
  have hcoherent : s.IsCoherent := Session.IsCoherent.after (fun _ _ => rfl) hacts
  have hkeeps : s.KeepsAnswers :=
    Session.KeepsAnswers.after (fun _ h => absurd h List.not_mem_nil) hacts
  refine ⟨?_, fun kept hlatest hyoung => ?_, hcoherent url h, hkeeps,
    Session.cache_call_of_failed hnoting, fun url' h' => Session.lookup_step_of_not_same hnoting,
    fun url' h' k' now hne => Session.call_step_of_ne hnoting hne h h' k' now⟩
  · rw [Session.requests_call_eq_zero_iff, hcoherent url h]
  · exact Session.call_of_isYoung hnoting ((hcoherent url h).trans hlatest) hyoung

namespace Sample

def noHeaders : HeaderMap := ⟨[], by decide, fun _ h => absurd h List.not_mem_nil⟩

def passing : Course ℚ where
  awake delay now :=
    match delay with
    | .int seconds => now + seconds
    | _ => now

def tunables : Tunables where
  settings := { baseDelay := .int 1 }
  extra := 2
  lifetime := ((300 : ℚ) : WithTop ℚ)

def failing : Outcome := .answer ⟨503, [], ""⟩

def found : Response := ⟨200, [], "found"⟩

def unported : String := "http://h\\:x/p"

def asked (url : String) (outcomes : List Outcome) (k : Course ℚ) (now : ℚ) : List Act :=
  [.serve ⟨[(url, outcomes)]⟩, .get url noHeaders k, .setClock now]

def awaited (now : ℚ) : List Act :=
  asked "r" [failing, failing, .answer found] passing now

def unnoted : List Act :=
  asked unported [.answer found] (.noted true unported) 0

def session (acts : List Act) : Session :=
  Session.after { tunables, clock := 0 } acts

end Sample

open Sample

theorem isYoung_iff {s : Session} (hlifetime : s.tunables.lifetime = ((300 : ℚ) : WithTop ℚ))
    {kept : Kept ℚ} : s.IsYoung kept ↔ s.clock - kept.received < 300 := by
  rw [Session.IsYoung, hlifetime, WithBot.coe_lt_coe, WithTop.coe_lt_coe]

theorem spared_iff_latest_isYoung_awaited :
    requests ((session (awaited 302)).call "r" noHeaders passing).2.1 = 0 ∧
      requests ((session (awaited 303)).call "r" noHeaders passing).2.1 ≠ 0 := by
  have hall (now : ℚ) := spared_iff_latest_isYoung tunables {} 0 Value.checkWait
    (show ∀ act ∈ awaited now, act.IsNoted by simp [awaited, asked, Act.IsNoted, passing]) "r" noHeaders
    (k := passing) rfl
  obtain ⟨hspared, -⟩ := hall 302
  obtain ⟨hsent, -⟩ := hall 303
  have hmoment (now : ℚ) :
      (latest? "r" noHeaders (session (awaited now)).receipts).map Kept.received = some 3 := by
    have hreceipts : (session (awaited now)).receipts = (session (awaited 0)).receipts := rfl
    rw [hreceipts]
    decide +kernel
  obtain ⟨kept, hkept, hreceived⟩ := Option.map_eq_some_iff.mp (hmoment 302)
  refine ⟨hspared.mpr ⟨kept, hkept, (isYoung_iff rfl).mpr ?_⟩, fun hzero => ?_⟩
  · rw [hreceived]
    decide +kernel
  · obtain ⟨kept, hkept, hyoung⟩ := hsent.mp hzero
    obtain ⟨kept', hkept', hreceived⟩ := Option.map_eq_some_iff.mp (hmoment 303)
    obtain rfl := Option.some.inj (hkept'.symm.trans hkept)
    have hage := (isYoung_iff rfl).mp hyoung
    rw [hreceived] at hage
    exact absurd hage (by decide +kernel)

/-- An answer whose receipt cannot be noted is not kept. -/
theorem not_spared_of_unnoted : ¬∀ (acts : List Act) (url : String) (k : Course ℚ),
    let s := session acts
    requests (s.call url noHeaders k).2.1 = 0 ↔
      ∃ kept, latest? url noHeaders s.receipts = some kept ∧ s.IsYoung kept := by
  intro hall
  have hmoment :
      (latest? unported noHeaders (session unnoted).receipts).map Kept.received = some 0 := by
    decide +kernel
  obtain ⟨kept, hkept, hreceived⟩ := Option.map_eq_some_iff.mp hmoment
  have hyoung : (session unnoted).IsYoung kept := by
    rw [isYoung_iff rfl, hreceived]
    decide +kernel
  have hzero := (hall unnoted unported (.noted true unported)).mpr ⟨kept, hkept, hyoung⟩
  have hsent : requests
      ((session unnoted).call unported noHeaders (.noted true unported)).2.1 = 1 := by
    decide +kernel
  exact absurd (hzero.symm.trans hsent) (by decide)

end Provision.Http
