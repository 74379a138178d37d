import Provision.Capability
import Provision.Value.Literal

namespace Provision

inductive FileError where
  | absent
  | isFolder
  | notFolder
  | nameTooLong
  | zeroByte
  deriving DecidableEq, Repr

def FileError.message (path : String) : FileError → String
  | .absent => "[Errno 2] No such file or directory: " ++ Text.quoted path
  | .isFolder => "[Errno 21] Is a directory: " ++ Text.quoted path
  | .notFolder => "[Errno 20] Not a directory: " ++ Text.quoted path
  | .nameTooLong => "[Errno 36] File name too long: " ++ Text.quoted path
  | .zeroByte => "embedded null byte"

inductive ConfigFault where
  | noFile (path : String)
  | unreadable (path : String) (cause : FileError)
  | unparsable (path : String)
  | noMapping (path : String)
  | httpNoMapping
  /-- A setting of requests that is no number. -/
  | httpValue
  | repositoriesNoList
  | unknownMode (name : String)

def ConfigFault.message : ConfigFault → String
  | .noFile path => "Config file not found: " ++ path
  | .unreadable path cause => "Failed to load config " ++ path ++ ": " ++ cause.message path
  | .unparsable path => "Failed to load config " ++ path ++ ": <yaml error>"
  | .noMapping path => "Config file " ++ path ++ " must contain a mapping"
  | .httpNoMapping => "'http' must be a mapping"
  | .httpValue => "Invalid http setting"
  | .repositoriesNoList => "'repositories' must be a list"
  | .unknownMode name =>
    "Unknown mode '" ++ name ++ "', expected one of " ++
      Value.literal (.list [.text "full", .text "slice"])

inductive Failure where
  /-- A version component that is no number. -/
  | component (name : String) (value : Value)
  | qualifier (value : Value)
  | version (value : Value)
  | range (value : Value)
  | emptyRange (bounds : VersionRange)
  | mode (value : Value)
  | blank (what : String) (value : Value)
  /-- A flag of a requirement that is no truth value. -/
  | flag (name what : String)
  | classifier (id value : Value)
  /-- An entry of a manifest that has to be a mapping. -/
  | entry (place what : String) (value : Value)
  | unitEntry (place : String) (value : Value)
  | unitKeys (place : String)
  /-- A flag in a manifest that is no truth value. -/
  | entryFlag (place key : String) (value : Value)
  /-- Manifest text that is no document. -/
  | unparsable (origin language : String)
  | noUnitList (origin : String)
  | noManifest (names : List String) (folder : String)
  | unreadable (manifest : String) (cause : FileError)
  | answered (target : String) (status : Int)
  | noUnit (label repository : String)
  | noArtifact (artifact unit location : String)
  | offline (repository : String)
  | noContent (unit : String)
  /-- A requested unit that no repository has, with each repository's failure. -/
  | noRequested (token : String) (reasons : List String)
  | unresolved (path : String) (requirement : Requirement)
  | noFolder (folder : String)
  | unreachable (target reason : String)
  /-- A requested unit of which no repository could be reached. -/
  | noneReachable (token : String) (reasons : List String)
  | configuration (fault : ConfigFault)
  /-- A file that cannot be read or written. -/
  | file (path : String) (cause : FileError)
  /-- Digits that make up no number. -/
  | numeral
  /-- A value of a type that the operation does not have. -/
  | wrongType
  /-- A number beyond the representable ones. -/
  | overflow
  /-- Bytes that are no text. -/
  | undecodable
  /-- A text that has no bytes. -/
  | unencodable (halves : Text.Unencodable)
  /-- A scalar whose explicit type does not know its text. -/
  | unknownScalar
  | emptyScalar
  | unmatchedScalar
  /-- More steps or levels than can be taken. -/
  | exhausted

namespace Failure

inductive Kind where
  | malformed
  | missing
  | unresolved
  | unavailable
  | configuration
  | file (cause : FileError)
  | numeral
  | wrongType
  | overflow
  | undecodable
  | unencodable
  | unknownScalar
  | emptyScalar
  | unmatchedScalar
  | exhausted
  deriving DecidableEq, Repr

def quotes : Failure → List Value
  | .component _ value | .qualifier value | .version value | .range value | .mode value
  | .blank _ value | .entry _ _ value | .unitEntry _ value | .entryFlag _ _ value => [value]
  | .classifier id value => [id, value]
  | _ => []

def kindAsSaid : Failure → Kind
  | .component _ _ | .qualifier _ | .version _ | .range _ | .emptyRange _ | .mode _ | .blank _ _
  | .flag _ _ | .classifier _ _ | .entry _ _ _ | .unitEntry _ _ | .unitKeys _
  | .entryFlag _ _ _ => .malformed
  | .unparsable _ _ | .noUnitList _ | .noManifest _ _ | .unreadable _ _ | .answered _ _
  | .noUnit _ _ | .noArtifact _ _ _ | .offline _ | .noContent _ | .noRequested _ _ => .missing
  | .unresolved _ _ => .unresolved
  | .noFolder _ | .unreachable _ _ | .noneReachable _ _ => .unavailable
  | .configuration _ => .configuration
  | .file _ cause => .file cause
  | .numeral => .numeral
  | .wrongType => .wrongType
  | .overflow => .overflow
  | .undecodable => .undecodable
  | .unencodable _ => .unencodable
  | .unknownScalar => .unknownScalar
  | .emptyScalar => .emptyScalar
  | .unmatchedScalar => .unmatchedScalar
  | .exhausted => .exhausted

/-- The kind of a failure; where it quotes a number too long to be written, that is what fails. -/
def kind (f : Failure) : Kind :=
  if f.quotes.all Value.isWritable then f.kindAsSaid else .numeral

/-- Whether data could not be found; all other failures end what they occur in. -/
def isMissing (f : Failure) : Bool :=
  match f.kind with
  | .missing | .unresolved | .unavailable => true
  | _ => false

def classifierList : Value :=
  .list [.text "osgi.bundle", .text "org.eclipse.update.feature"]

def unencodableMessage (u : Text.Unencodable) : String :=
  match u.halves with
  | [unit] =>
    "'utf-8' codec can't encode character '\\u" ++ String.ofList (Text.hexDigits 4 unit) ++
      "' in position " ++ toString u.position ++ ": surrogates not allowed"
  | halves =>
    "'utf-8' codec can't encode characters in position " ++ toString u.position ++ "-" ++
      toString (u.position + halves.length - 1) ++ ": surrogates not allowed"

def message : Failure → String
  | .component name value => "invalid " ++ name ++ " version component: " ++ value.literal
  | .qualifier value => "invalid version qualifier: " ++ value.literal
  | .version value => "invalid version: " ++ value.literal
  | .range value => "invalid version range: " ++ value.literal
  | .emptyRange bounds => "empty version range: " ++ bounds.text
  | .mode value => "unknown include mode: " ++ value.literal
  | .blank what value => what ++ " must be a non-empty string, got " ++ value.literal
  | .flag name what => "requirement " ++ name ++ ": " ++ what ++ " must be a boolean"
  | .classifier id value =>
    "artifact " ++ id.display ++ ": classifier must be one of " ++ classifierList.literal ++
      ", got " ++ value.literal
  | .entry place what value => place ++ ": " ++ what ++ " must be a mapping, got " ++ value.literal
  | .unitEntry place value => place ++ ": expected a mapping, got " ++ value.literal
  | .unitKeys place => place ++ ": 'id' and 'version' are required"
  | .entryFlag place key value =>
    place ++ ": '" ++ key ++ "' must be true or false, got " ++ value.literal
  | .unparsable origin language =>
    "can't parse repository manifest " ++ origin ++ ": <" ++ language ++ " error>"
  | .noUnitList origin => "repository manifest " ++ origin ++ " has no 'units' list"
  | .noManifest names folder =>
    "no repository manifest (" ++ Text.join ", " names ++ ") in " ++ folder
  | .unreadable manifest cause =>
    "can't read repository manifest " ++ manifest ++ ": " ++ cause.message manifest
  | .answered target status =>
    "repository " ++ target ++ " answered with HTTP " ++ toString status
  | .noUnit label repository => "can't find unit " ++ label ++ " in " ++ repository
  | .noArtifact artifact unit location =>
    "artifact " ++ artifact ++ " of unit " ++ unit ++ " not found at " ++ location
  | .offline repository => "repository " ++ repository ++ " is offline"
  | .noContent unit => "no content for " ++ unit
  | .noRequested token reasons | .noneReachable token reasons =>
    "can't find requested unit " ++ token ++ ": " ++
      (if reasons.isEmpty then "no repositories configured" else Text.join "; " reasons)
  | .unresolved path requirement =>
    "can't resolve " ++ path ++ " -> " ++ requirement.name ++ " -> ???"
  | .noFolder folder => "repository folder " ++ folder ++ " does not exist"
  | .unreachable target reason => "repository " ++ target ++ " is unreachable: " ++ reason
  | .configuration fault => fault.message
  | .file path cause => cause.message path
  | .numeral => "not a number"
  | .wrongType => "not applicable to a value of this type"
  | .overflow => "number out of range"
  | .undecodable => "not encoded as UTF-8"
  | .unencodable u => unencodableMessage u
  | .unknownScalar => "unknown scalar"
  | .emptyScalar => "empty scalar"
  | .unmatchedScalar => "scalar of another form"
  | .exhausted => "out of steps"

end Failure

end Provision
