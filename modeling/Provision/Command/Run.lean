import Provision.Command.Configuration
import Provision.Workspace.Access
import Provision.Workspace.Export
import Provision.Workspace.Lookup

namespace Provision.Command

open Provision.Text

inductive ExitCode where
  | success
  | fileError
  | connectionError
  | unresolved
  | malformed
  deriving DecidableEq, Repr

def ExitCode.number : ExitCode → Nat
  | .success => 0
  | .fileError => 1
  | .connectionError => 2
  | .unresolved => 3
  | .malformed => 4

def openLogFile (path : String) : Operation Unit := do
  let w ← get
  let place := String.ofList (Path.absolute w.workingFolder.toList path.toList)
  match w.files.target place with
  | .error cause => throw (.file place cause)
  | .ok names =>
    if (w.files.entry? names).isNone then
      set { w with files := w.files.set names (.file ⟨#[]⟩) }

def startLog (a : Arguments) (surrounding level : Option String) : Operation Unit := do
  modify fun w => { w with threshold := Log.threshold level surrounding }
  match a.logFile.filter (!·.isEmpty) with
  | none => return ()
  | some path =>
    openLogFile path
    Operation.log .info ("Logging to file: " ++ path)

def exitOf? (f : Failure) : Option (ExitCode × String) :=
  match f.kind with
  | .malformed => some (.malformed, "Malformed repository content: " ++ f.message)
  | .unresolved | .missing => some (.unresolved, f.message)
  | .unavailable => some (.connectionError, f.message)
  | _ => none

def attempt {α : Type} (handle : Failure → Option (ExitCode × String)) (x : Operation α) :
    Operation (α ⊕ ExitCode) := fun w =>
  match x w with
  | .ok a w => .ok (.inl a) w
  | .error f w =>
    match handle f with
    | none => .error f w
    | some (code, message) => .ok (.inr code) (w.note ⟨.error, message, []⟩)

def openAll (locations : List String) : Operation (List Source) :=
  locations.mapM fun location => do
    let w ← get
    let (source, w) := w.openRepository (Repository.ofLocation w.workingFolder location none)
    set w
    return source

def resolveAll (c : Configuration) (sources : List Source) : Operation Resolution.Result := do
  let requested ← c.units.mapM (Operation.findRequested sources)
  Resolution.resolve Operation.access ⟨sources, c.mode⟩ requested

def summary (R : Resolution.Result) : String :=
  "Resolved " ++ toString R.units.size ++ " units into " ++ toString R.bundles.size ++
    " bundles and " ++ toString R.features.size ++ " features (" ++ R.mode.text ++ " mode)."

def formatOf (a : Arguments) (output : String) : Format :=
  match a.format with
  | some f => f
  | none => if endsWith ".csv".toList (lower output.toList) then .csv else .json

def exportResult (a : Arguments) (R : Resolution.Result) (output : String) : Operation Unit := do
  match formatOf a output with
  | .json => Operation.exportJson R output
  | .csv => Operation.exportCsv R output

def isFileOrValue (f : Failure) : Bool :=
  match f.kind with
  | .file _ | .malformed | .numeral | .undecodable | .unencodable => true
  | _ => false

def exitOfExport? (output : String) (f : Failure) : Option (ExitCode × String) :=
  if isFileOrValue f then
    some (.fileError, "Result couldn't be written to " ++ output ++ ": " ++ f.message)
  else none

def finish (a : Arguments) (R : Resolution.Result) : Operation ExitCode := do
  Operation.log .info (summary R)
  R.failed.forM fun r => Operation.log .warning ("Requirement " ++ r.text ++ " was not resolved.")
  match a.output.filter (!·.isEmpty) with
  | none => return .success
  | some output =>
    match ← attempt (exitOfExport? output) (exportResult a R output) with
    | .inl () => return .success
    | .inr code => return code

def noRepositories : String :=
  "No repositories given, use --repository or the 'repositories' config key."

def announce (c : Configuration) : Operation Unit :=
  Operation.trace "CLI start" do
    return [("event", .text "function_entry"), ("component", .text "cli"),
      ("action", .text "main"), ("mode", .text c.mode.text),
      ("repositories", .int c.repositories.length)]

def runConfigured (a : Arguments) (c : Configuration) : Operation ExitCode := do
  announce c
  if c.repositories.isEmpty then
    Operation.log .error noRepositories
    return .fileError
  let sources ← openAll c.repositories
  match ← attempt exitOf? (resolveAll c sources) with
  | .inl R => finish a R
  | .inr code => return code

def reject (a : Arguments) (surrounding : Option String) (fault : ConfigFault) :
    Operation ExitCode := do
  startLog a surrounding a.logLevel
  Operation.log .error fault.message
  return .fileError

/-- A whole run; `surrounding` is the level that the environment asks for. -/
def run (a : Arguments) (surrounding : Option String) : Operation ExitCode := fun w =>
  match Configuration.ofArguments a w with
  | .ok c w => (startLog a surrounding c.logLevel *> runConfigured a c) w
  | .error (.configuration fault) w => reject a surrounding fault w
  | .error f w => .error f w

def shownFrom (a : Arguments) : Nat :=
  if a.isQuiet then Log.Level.error.rank else 0

def shownLines (a : Arguments) (w : Workspace) : List String :=
  let shown := w.log.reverse.filter fun r => shownFrom a ≤ r.level.rank
  shown.flatMap fun r =>
    (splitOnChar '\n' ("[" ++ r.level.name ++ "] " ++ r.message).toList).map String.ofList

end Provision.Command
