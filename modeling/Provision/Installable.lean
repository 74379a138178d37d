import Provision.Artifact

namespace Provision

def unitNamespace : String := "org.eclipse.equinox.p2.iu"

inductive Identity where
  | memory (name : String)
  | folder (path : String)
  | remote (url : String)
  deriving DecidableEq, Repr

/-- A repository as units and runs refer to it. Repositories of one identity are the same, though
each handle has its own list of units and its own name. -/
structure Source where
  identity : Identity
  handle : Nat
  deriving DecidableEq, Repr

def Source.same (a b : Source) : Bool :=
  a.identity = b.identity

structure Installable where
  id : String
  version : Version
  requires : List Requirement := []
  provides : List Capability := []
  artifacts : List Artifact := []
  owner : Option Source := none

namespace Installable

def text (u : Installable) : String :=
  u.id ++ ":" ++ u.version.text

structure Key where
  id : String
  version : Version
  owner : Option Identity
  deriving DecidableEq, Repr

def key (u : Installable) : Key :=
  ⟨u.id, u.version, u.owner.map Source.identity⟩

def same (a b : Installable) : Bool :=
  a.key = b.key

def identity (namespaceName id : String) (version : Version) : Capability :=
  ⟨namespaceName, id, version⟩

def satisfies (u : Installable) (r : Requirement) : Bool :=
  u.provides.any r.accepts

/-- A unit with its identity in front of the declared capabilities, unless it is among them. -/
def build (namespaceName id : String) (version : Version) (requires : List Requirement)
    (provides : List Capability) (artifacts : List Artifact) (owner : Option Source) :
    Installable :=
  let self := identity namespaceName id version
  ⟨id, version, requires, if self ∈ provides then provides else self :: provides, artifacts, owner⟩

end Installable

end Provision
