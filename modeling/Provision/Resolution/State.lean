import Provision.Installable

namespace Provision.Resolution

structure State where
  /-- The visited units, in the order of the visits. -/
  units : List Installable := []
  resolved : List Requirement.Key := []
  /-- The failed requirements, in the order in which they failed first. -/
  failed : List Requirement := []

namespace State

def containsUnit (s : State) (u : Installable) : Bool :=
  s.units.any u.same

def isResolved (s : State) (r : Requirement) : Bool :=
  s.resolved.contains r.key || s.units.any (·.satisfies r)

def isFailed (s : State) (r : Requirement) : Bool :=
  s.failed.any (·.key = r.key)

def promoted (s : State) (u : Installable) : List Requirement :=
  s.failed.filter u.satisfies

def addUnit (s : State) (u : Installable) : State :=
  if s.containsUnit u then s
  else
    { units := s.units ++ [u]
      resolved := (s.promoted u).foldl (fun keys r => keys.insert r.key) s.resolved
      failed := s.failed.filter fun r => !u.satisfies r }

def addResolved (s : State) (r : Requirement) : State :=
  { s with
    resolved := s.resolved.insert r.key
    failed := s.failed.filter fun q => q.key ≠ r.key }

/-- Marks a requirement failed, unless it is settled already. -/
def addFailed (s : State) (r : Requirement) : State :=
  if s.isResolved r || s.isFailed r then s else { s with failed := s.failed ++ [r] }

end State

end Provision.Resolution
