import Provision.Installable
import Provision.Text.Quoted

namespace Provision

open Provision.Text

class Versioned (α : Type) where
  id : α → String
  version : α → Version

instance : Versioned Bundle := ⟨Bundle.id, Bundle.version⟩

instance : Versioned Feature := ⟨Feature.id, Feature.version⟩

instance : Versioned Installable := ⟨Installable.id, Installable.version⟩

structure Collection (α : Type) where
  items : List α := []

namespace Collection

variable {α : Type} [Versioned α]

def isAt (id : String) (version : Version) (a : α) : Bool :=
  Versioned.id a = id && Versioned.version a = version

def contains (c : Collection α) (id : String) (version : Version) : Bool :=
  c.items.any (isAt id version)

def has (c : Collection α) (a : α) : Bool :=
  c.contains (Versioned.id a) (Versioned.version a)

def add (c : Collection α) (a : α) : Collection α :=
  if c.has a then c else ⟨c.items ++ [a]⟩

def get? (c : Collection α) (id : String) (version : Version) : Option α :=
  c.items.find? (isAt id version)

def isCandidate (id : String) (range : VersionRange) (a : α) : Bool :=
  Versioned.id a = id && range.includes (Versioned.version a)

/-- The later of two items, the first one where they have the same version. -/
def later (best : Option α) (a : α) : Option α :=
  match best with
  | none => some a
  | some b => if Versioned.version b < Versioned.version a then some a else some b

/-- The item of an id with the greatest version in a range. -/
def find? (c : Collection α) (id : String) (range : VersionRange) : Option α :=
  (c.items.filter (isCandidate id range)).foldl later none

def size (c : Collection α) : Nat :=
  c.items.length

def text (c : Collection α) : String :=
  let labels := c.items.map fun a => quoted (Versioned.id a ++ ":" ++ (Versioned.version a).text)
  "[" ++ join ", " labels ++ "]"

end Collection

end Provision
