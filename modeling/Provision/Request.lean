import Provision.Text.Blank

namespace Provision

open Provision.Text

structure Request where
  id : String
  version : Option String
  deriving DecidableEq, Repr

namespace Request

/-- The part behind the last colon is the version, unless it is blank. -/
def ofText (s : String) : Request :=
  let cs := trim s.toList
  match cutAtLast (· = ':') cs with
  | none => ⟨String.ofList cs, none⟩
  | some (id, version) =>
    let version := trim version
    ⟨String.ofList (trim id), if version.isEmpty then none else some (String.ofList version)⟩

end Request

end Provision
