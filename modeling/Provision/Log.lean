import Provision.Text.Case
import Provision.Value

namespace Provision

open Provision.Text

namespace Log

inductive Level where
  | debug
  | info
  | warning
  | error
  deriving DecidableEq, Repr

def Level.name : Level → String
  | .debug => "DEBUG"
  | .info => "INFO"
  | .warning => "WARNING"
  | .error => "ERROR"

def Level.rank : Level → Nat
  | .debug => 10
  | .info => 20
  | .warning => 30
  | .error => 40

structure Record where
  level : Level
  message : String
  context : List (String × Value) := []

def rankOf? : String → Option Nat
  | "CRITICAL" | "FATAL" => some 50
  | "ERROR" => some 40
  | "WARNING" | "WARN" => some 30
  | "INFO" => some 20
  | "DEBUG" => some 10
  | "NOTSET" => some 0
  | _ => none

/-- The threshold of a run: by the given name, else by the surrounding's, else that of `INFO`. A name
of no level stands for `INFO` too. -/
def threshold (given surrounding : Option String) : Nat :=
  let name := match given.filter (!·.isEmpty) with
    | some name => name
    | none => (surrounding.filter (!·.isEmpty)).getD "INFO"
  (rankOf? (upperText name)).getD 20

def secretWords : List String :=
  ["token", "password", "secret", "apikey", "api_key", "auth"]

def isInfix (part : List Char) : List Char → Bool
  | [] => part.isEmpty
  | c :: cs => startsWith part (c :: cs) || isInfix part cs

def namesSecret (name : String) : Bool :=
  secretWords.any fun word => isInfix word.toList (lower name.toList)

/-- A context without nulls, and with stars for secrets. -/
def context (fields : List (String × Value)) : List (String × Value) :=
  fields.filterMap fun (name, value) =>
    match value with
    | .null => none
    | _ => some (name, if namesSecret name then .text "***" else value)

end Log

end Provision
