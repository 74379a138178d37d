import Provision.VersionRange

namespace Provision

structure Capability where
  namespaceName : String
  name : String
  version : Version
  deriving DecidableEq, Repr

def Capability.text (c : Capability) : String :=
  c.namespaceName ++ "/" ++ c.name ++ "/" ++ c.version.text

/-- A question for a capability. An optional one never fails its unit; a greedy one is searched for
even when optional. -/
structure Requirement where
  namespaceName : String
  name : String
  range : VersionRange := .any
  optional : Bool := false
  greedy : Bool := true
  deriving DecidableEq, Repr

namespace Requirement

structure Key where
  namespaceName : String
  name : String
  range : VersionRange
  deriving DecidableEq, Repr

def key (r : Requirement) : Key := ⟨r.namespaceName, r.name, r.range⟩

def accepts (r : Requirement) (c : Capability) : Bool :=
  c.namespaceName = r.namespaceName && c.name = r.name && r.range.includes c.version

def flagsText (r : Requirement) : String :=
  if r.optional then (if r.greedy then " (optional)" else " (optional, non-greedy)") else ""

def text (r : Requirement) : String :=
  r.namespaceName ++ "/" ++ r.name ++ "/" ++ r.range.text ++ r.flagsText

end Requirement

end Provision
