import Provision.Command.Arguments
import Provision.Workspace
import Provision.Yaml.Document

namespace Provision.Command

open Provision.Text

structure Configuration where
  repositories : List String
  mode : IncludeMode
  units : List String
  logLevel : Option String

namespace Configuration

abbrev Document := List (Value × Value)

def fail {α : Type} (fault : ConfigFault) : Operation α :=
  throw (.configuration fault)

def parse (path : String) (content : ByteArray) : Operation Document :=
  match Yaml.read true (.ofFile content) with
  | .error (.failure cause) => throw cause
  | .error _ => fail (.unparsable path)
  | .ok v =>
    match v.opened with
    | .null => return []
    | .map entries => return entries
    | _ => fail (.noMapping path)

def load (path : String) : Operation Document := do
  if path.isEmpty then return []
  let files := (← get).files
  if !files.isFile path then fail (.noFile path)
  match files.read path with
  | .error cause => fail (.unreadable path cause)
  | .ok content => parse path content

def entry (d : Document) (key : String) : Value :=
  (Value.get? key d).getD .null

def filled? (d : Document) (key : String) : Option Value :=
  let v := entry d key
  if v.isEmpty then none else some v

/-! ### Numbers -/

def orNumeral {α : Type} : Option α → Except Failure α
  | some a => return a
  | none => throw .numeral

/-- The text of bytes that make up a numeral: in bytes only ASCII counts. -/
def numeralOf (bs : List UInt8) : Except Failure (List Char) :=
  if bs.all (· < 0x80) then return bs.map fun b => Char.ofNat b.toNat else throw .numeral

def toFloat (v : Value) : Except Failure Float :=
  match v with
  | .text s => orNumeral (Decimal.float? s.toList)
  | .bytes bs => do orNumeral (Decimal.float? (← numeralOf bs))
  | v => v.toFloat

def toInt (v : Value) : Except Failure Int :=
  match v with
  | .float x =>
    match Decimal.truncate? x with
    | some i => return i
    | none => throw (if x.isNaN then .numeral else .overflow)
  | .text s => orNumeral (Numeral.int? 10 s.toList)
  | .bytes bs => do orNumeral (Numeral.int? 10 (← numeralOf bs))
  | v => v.toInteger

def setting {α : Type} : Except Failure α → Operation α
  | .ok a => return a
  | .error f =>
    if f.kind = .numeral ∨ f.kind = .wrongType then fail .httpValue else throw f

def modifySettings (f : Http.Settings → Http.Settings) : Operation Unit :=
  modify fun w => { w with http := { w.http with settings := f w.http.settings } }

def applyHttp (d : Document) : Operation Unit := do
  match entry d "timeout" with
  | .null => pure ()
  | v =>
    let x ← setting (toFloat v)
    modifySettings fun s => { s with timeout := .float x }
  match entry d "retries" with
  | .null => pure ()
  | v =>
    let n ← setting (toInt v)
    modifySettings fun s => { s with retries := .int (max 1 n) }
  match entry d "cache_ttl" with
  | .null => pure ()
  | v =>
    let n ← setting (toInt v)
    modifySettings fun s => { s with cacheTtl := .int n }

def httpSettings (d : Document) : Operation Unit :=
  match (filled? d "http").map Value.opened with
  | none => return ()
  | some (.map entries) => applyHttp entries
  | some _ => fail .httpNoMapping

/-! ### All settings -/

/-- The text a value turns into, unless it holds a number too long to be written. -/
def textOf (v : Value) : Operation String :=
  if v.isWritable then return v.display else throw .numeral

def repositoriesOf (a : Arguments) (d : Document) : Operation (List String) :=
  if !a.repositories.isEmpty then return a.repositories
  else
    match (filled? d "repositories").map Value.opened with
    | none => return []
    | some (.list xs) => xs.mapM textOf
    | some _ => fail .repositoriesNoList

def modeOf (a : Arguments) (d : Document) : Operation IncludeMode := do
  match a.mode, filled? d "mode" with
  | some mode, _ => return mode
  | none, none => return .full
  | none, some v =>
    let name := lowerText (← textOf v)
    match IncludeMode.ofName? name with
    | some mode => return mode
    | none => fail (.unknownMode name)

def logLevelOf (a : Arguments) (d : Document) : Operation (Option String) := do
  match a.logLevel, filled? d "loglevel" with
  | some level, _ => return some (upperText level)
  | none, some v => return some (upperText (← textOf v))
  | none, none => return none

def ofArguments (a : Arguments) : Operation Configuration := do
  let d ← load (a.config.getD "")
  httpSettings d
  let repositories ← repositoriesOf a d
  let mode ← modeOf a d
  return ⟨repositories, mode, a.units, ← logLevelOf a d⟩

end Configuration

end Provision.Command
