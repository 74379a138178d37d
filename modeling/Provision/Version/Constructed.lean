import Provision.Failure

namespace Provision

inductive Component where
  | number (n : Nat)
  | truth (b : Bool)
  deriving DecidableEq, Repr

namespace Component

def toNat : Component → Nat
  | .number n => n
  | .truth b => if b then 1 else 0

def text : Component → String
  | .number n => toString n
  | .truth b => Value.boolLiteral b

def value : Component → Value
  | .number n => .int n
  | .truth b => .bool b

def ofValue (name : String) (v : Value) : Except Failure Component :=
  match v with
  | .bool b => return .truth b
  | .int i => if 0 ≤ i then return .number i.toNat else throw (.component name v)
  | _ => throw (.component name v)

end Component

structure ConstructedVersion where
  major : Component
  minor : Component
  micro : Component
  qualifier : String
  deriving DecidableEq, Repr

namespace ConstructedVersion

def toVersion (v : ConstructedVersion) : Version :=
  ⟨v.major.toNat, v.minor.toNat, v.micro.toNat, v.qualifier⟩

def text (v : ConstructedVersion) : String :=
  let numbers := v.major.text ++ "." ++ v.minor.text ++ "." ++ v.micro.text
  if v.qualifier.isEmpty then numbers else numbers ++ "." ++ v.qualifier

def written (v : ConstructedVersion) : Except Failure String :=
  if [v.major, v.minor, v.micro].all fun c => c.value.isWritable then return v.text
  else throw .numeral

/-- Whether a text is a qualifier, a line feed at its end left aside. -/
def isQualifier (cs : List Char) : Bool :=
  (Text.dropLineEnd cs).all Version.isQualifierChar

def ofValues (major minor micro qualifier : Value) : Except Failure ConstructedVersion := do
  let major ← Component.ofValue "major" major
  let minor ← Component.ofValue "minor" minor
  let micro ← Component.ofValue "micro" micro
  match qualifier with
  | .text q =>
    if isQualifier q.toList then return ⟨major, minor, micro, q⟩ else throw (.qualifier qualifier)
  | _ => throw .wrongType

end ConstructedVersion

end Provision
