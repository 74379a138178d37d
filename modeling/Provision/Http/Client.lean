import Provision.Http
import Provision.Number
import Provision.Url.Public

namespace Provision.Http

class Time (τ : Type) where
  since : τ → τ → τ
  /-- Whether a span is shorter than one that is given by a value. -/
  isShorter : τ → Value → Except Failure Bool

instance : Time Float where
  since now then_ := now - then_
  isShorter := Value.isAbove

structure Kept (τ : Type) where
  response : Response
  received : τ

structure Client (τ : Type) where
  server : Server := {}
  settings : Settings := {}
  /-- The kept answers by the keys of their requests. -/
  cache : List (String × Kept τ) := []
  clock : τ
  /-- What becomes of an attempt to wait. -/
  sleep : Value → Except Failure Unit := Value.checkWait

/-- What goes on beside a request. In the plain course nothing takes time, and all can be noted. -/
structure Course (τ : Type) where
  /-- When a wait is over that begins at a moment. -/
  awake : Value → τ → τ := fun _ now => now
  /-- When the outcome of an attempt is there that begins at a moment. -/
  arrival : Nat → Outcome → τ → τ := fun _ _ now => now
  /-- What becomes of an attempt to note what happens. -/
  noting : Except Failure Unit := .ok ()

/-- The plain course of a request. Where messages are noted, they name its address. -/
def Course.noted {τ : Type} (isTracing : Bool) (url : String) : Course τ :=
  { noting := if isTracing then (Url.publicText url).map fun _ => () else .ok () }

abbrev Headers := List (String × Value)

/-- The key of a request: its address, and its headers in the order of their names' code points. -/
def cacheKey (url : String) (headers : Headers) : String :=
  let sorted := headers.mergeSort fun a b => Text.isUpTo (Text.codes a.1) (Text.codes b.1)
  let pairs := sorted.map fun (name, value) => Value.pair (.text name) value
  "GET:" ++ url ++ ":" ++ (if headers.isEmpty then "" else (Value.list pairs).literal)

inductive Ending where
  | answer (r : Response)
  /-- No attempt is left; the reason is that of the last one. -/
  | gaveUp (reason : Option String)
  /-- There is no way to go on. -/
  | failed (cause : Failure)

structure Trial (τ : Type) where
  events : List Event := []
  ending : Ending
  server : Server
  clock : τ

def delay? (base : Value) (attempt : Nat) : Except Failure (Option Value) :=
  if attempt ≤ 1 then return none
  else return some (← base.times (Nat.pow 2 (attempt - 2)))

def judge (attempt : Nat) : Outcome → Event × (Response ⊕ String)
  | .timeout => (.failed attempt "timeout", .inr "timeout")
  | .failure reason => (.failed attempt reason, .inr reason)
  | .answer r =>
    (.answered attempt r.status,
      if 500 ≤ r.status then .inr ("HTTP " ++ toString r.status) else .inl r)

def Settings.attempts (s : Settings) : Except Failure Nat := do
  return (← s.retries.toInteger).toNat

def noAnswer (s : Settings) (reason : Option String) : Except Failure Response :=
  if s.retries.isWritable then
    return ⟨0, [],
      "Request failed after " ++ s.retries.display ++ " attempts: " ++ reason.getD "None"⟩
  else throw .numeral

namespace Client

variable {τ : Type}

def wait (c : Client τ) (k : Course τ) (attempt : Nat) (now : τ) :
    Except Failure (List Event × τ) := do
  match ← delay? c.settings.baseDelay attempt with
  | none => return ([], now)
  | some delay =>
    c.sleep delay
    return ([.slept delay], k.awake delay now)

def tries (c : Client τ) (k : Course τ) (url : String) :
    (left attempt : Nat) → Option String → Server → τ → Trial τ
  | 0, _, reason, s, now => { ending := .gaveUp reason, server := s, clock := now }
  | left + 1, attempt, _, s, now =>
    match c.wait k attempt now with
    | .error cause => { ending := .failed cause, server := s, clock := now }
    | .ok (waiting, now) =>
      let (outcome, s) := s.next url
      let now := k.arrival attempt outcome now
      let (event, verdict) := judge attempt outcome
      let events := waiting ++ [.called, event]
      match k.noting, verdict with
      | .error cause, _ => { events, ending := .failed cause, server := s, clock := now }
      | .ok (), .inl r => { events, ending := .answer r, server := s, clock := now }
      | .ok (), .inr reason =>
        let rest := c.tries k url left (attempt + 1) (some reason) s now
        { rest with events := events ++ rest.events }

variable [Time τ]

def isFresh (c : Client τ) (kept : Kept τ) : Except Failure Bool :=
  Time.isShorter (Time.since c.clock kept.received) c.settings.cacheTtl

def keep (c : Client τ) (key : String) (r : Response) : Client τ :=
  { c with cache := (key, ⟨r, c.clock⟩) :: c.cache.filter fun (k, _) => k != key }

/-- Sends a request that the cache does not answer. An answer is kept with the moment at which it has
come, after all that was waited for. -/
def send (c : Client τ) (k : Course τ) (url key : String) :
    Except Failure Response × List Event × Client τ :=
  match c.settings.attempts with
  | .error f => (.error f, [], c)
  | .ok n =>
    let t := c.tries k url n 1 none c.server c.clock
    let c := { c with server := t.server, clock := t.clock }
    match t.ending with
    | .answer r => (.ok r, t.events, c.keep key r)
    | .gaveUp reason => (noAnswer c.settings reason, t.events, c)
    | .failed cause => (.error cause, t.events, c)

def get (c : Client τ) (url : String) (headers : Headers) (k : Course τ := {}) :
    Except Failure Response × List Event × Client τ :=
  let key := cacheKey url headers
  match c.cache.lookup key with
  | none => c.send k url key
  | some kept =>
    match c.isFresh kept with
    | .ok true => (k.noting.map fun _ => kept.response, [.hit], c)
    | .ok false => c.send k url key
    | .error f => (.error f, [], c)

def clearCache (c : Client τ) : Client τ := { c with cache := [] }

end Client

end Provision.Http
