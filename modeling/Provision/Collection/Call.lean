import Provision.Collection
import Provision.Version.Reader

namespace Provision.Collection

inductive Call (α : Type) where
  | add (a : α)
  | contains (id : String) (version : Value ⊕ Version)
  | get (id : String) (version : Value ⊕ Version)
  | find (id : String) (range : Value ⊕ VersionRange)
  | has (a : α)
  | list
  | size

inductive Answer (α : Type) where
  | truth (b : Bool)
  | item (a : Option α)
  | items (as : List α)
  | count (n : Nat)

def readVersion : Value ⊕ Version → Except Failure Version
  | .inl v => Version.ofValue v
  | .inr v => return v

def readRange : Value ⊕ VersionRange → Except Failure VersionRange
  | .inl v => VersionRange.ofValue v
  | .inr r => return r

variable {α : Type} [Versioned α]

def answer (c : Collection α) : Call α → Except Failure (Answer α)
  | .add a => return .truth (!c.has a)
  | .contains id version => return .truth (c.contains id (← readVersion version))
  | .get id version => return .item (c.get? id (← readVersion version))
  | .find id range => return .item (c.find? id (← readRange range))
  | .has a => return .truth (c.has a)
  | .list => return .items c.items
  | .size => return .count c.size

def perform (c : Collection α) : Call α → Collection α
  | .add a => c.add a
  | .contains .. | .get .. | .find .. | .has .. | .list | .size => c

end Provision.Collection
