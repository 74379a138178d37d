import Provision.Number

namespace Provision.Http

structure Response where
  status : Int
  headers : List (String × Value)
  text : String

inductive Outcome where
  | answer (r : Response)
  | timeout
  /-- No connection came about. -/
  | failure (reason : String)

/-- What a server does is a script for each address: every request takes the next outcome, and the last
one stays. -/
structure Server where
  scripts : List (String × List Outcome) := []

namespace Server

def setScript (s : Server) (url : String) (outcomes : List Outcome) : Server :=
  ⟨(url, outcomes) :: s.scripts.filter fun (u, _) => u != url⟩

/-- The outcome of a request; an address without script is not reached. -/
def next (s : Server) (url : String) : Outcome × Server :=
  match s.scripts.lookup url with
  | none | some [] => (.failure "refused", s)
  | some [o] => (o, s)
  | some (o :: rest) => (o, s.setScript url rest)

end Server

structure Settings where
  timeout : Value := .int 30
  retries : Value := .int 3
  baseDelay : Value := .float 0.3
  cacheTtl : Value := .int 300

inductive Event where
  /-- The answer was in the cache. -/
  | hit
  | slept (delay : Value)
  | called
  | failed (attempt : Nat) (reason : String)
  | answered (attempt : Nat) (status : Int)

end Provision.Http
