import Provision.Yaml.Cursor

namespace Provision.Yaml

inductive Directive where
  | version (major : Nat)
  | tag (handle start : String)
  | other
  deriving Repr

inductive Token where
  | directive (d : Directive)
  | documentStart
  | documentEnd
  | blockSequenceStart
  | blockMappingStart
  | blockEnd
  | flowSequenceStart
  | flowSequenceEnd
  | flowMappingStart
  | flowMappingEnd
  | blockEntry
  | flowEntry
  | key
  | value
  | alias (name : String)
  | anchor (name : String)
  | tag (handle : Option String) (suffix : String)
  | scalar (text : String) (isPlain : Bool)
  deriving Repr

/-- The tokens that can be told from a text, and the fault met behind them, if there is one. -/
structure Tokens where
  settled : List Token
  ending : Option Fault := none

end Provision.Yaml
