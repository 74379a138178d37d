import Provision.Version

namespace Provision

structure VersionRange where
  minimum : Version := {}
  includeMinimum : Bool := true
  maximum : Option Version := none
  includeMaximum : Bool := false
  deriving DecidableEq, Repr, Inhabited

namespace VersionRange

def any : VersionRange := {}

def exactly (v : Version) : VersionRange := ⟨v, true, some v, true⟩

def Ordered (r : VersionRange) : Prop :=
  ∀ m ∈ r.maximum, r.minimum < m ∨ r.minimum = m ∧ r.includeMinimum ∧ r.includeMaximum

instance (r : VersionRange) : Decidable r.Ordered :=
  match h : r.maximum with
  | none => isTrue (by simp [Ordered, h])
  | some m =>
    decidable_of_iff (r.minimum < m ∨ r.minimum = m ∧ r.includeMinimum ∧ r.includeMaximum)
      (by simp [Ordered, h])

def aboveMinimum (r : VersionRange) (v : Version) : Bool :=
  if r.includeMinimum then r.minimum ≤ v else r.minimum < v

def belowMaximum (r : VersionRange) (v : Version) : Bool :=
  match r.maximum with
  | none => true
  | some m => if r.includeMaximum then v ≤ m else v < m

def includes (r : VersionRange) (v : Version) : Bool :=
  r.aboveMinimum v && r.belowMaximum v

/-- The written form: a bare version stands for itself and every higher one. -/
def text (r : VersionRange) : String :=
  match r.maximum, r.includeMinimum with
  | none, true => r.minimum.text
  | maximum, includeMinimum =>
    (if includeMinimum then "[" else "(") ++ r.minimum.text ++ "," ++
      (maximum.map Version.text).getD "" ++ (if r.includeMaximum then "]" else ")")

def isWritable (r : VersionRange) : Bool :=
  r.minimum.isWritable && r.maximum.all Version.isWritable

end VersionRange

end Provision
