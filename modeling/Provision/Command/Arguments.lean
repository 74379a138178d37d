import Provision.Installable.Reader
import Provision.Text.Digit

namespace Provision.Command

open Provision.Text

inductive Flag where
  | help
  | repository
  | unit
  | mode
  | output
  | format
  | logLevel
  | logFile
  | quiet
  | config
  deriving DecidableEq, Repr

def Flag.takesValue : Flag → Bool
  | .help | .quiet => false
  | _ => true

def flagNames : List (String × Flag) :=
  [("-h", .help), ("--help", .help), ("-r", .repository), ("--repository", .repository),
    ("-u", .unit), ("--unit", .unit), ("-m", .mode), ("--mode", .mode), ("-o", .output),
    ("--output", .output), ("-f", .format), ("--format", .format), ("--loglevel", .logLevel),
    ("--logfile", .logFile), ("-q", .quiet), ("--quiet", .quiet), ("-c", .config),
    ("--config", .config)]

def flagOf? (name : List Char) : Option Flag :=
  flagNames.lookup (String.ofList name)

inductive Stop where
  /-- The usage is asked for. -/
  | help
  | misuse
  deriving DecidableEq, Repr

inductive Word where
  | operand (text : String)
  /-- A flag, whether it is written with its long name, and what is attached to it. -/
  | flag (f : Flag) (isLong : Bool) (attached : Option (List Char))
  | unknown

/-- Negative numbers, also with a line feed behind them, look like flags and are none. -/
def isNegativeNumber : List Char → Bool
  | '-' :: cs =>
    match cutAt (· = '.') (dropLineEnd cs) with
    | (digits, none) => !digits.isEmpty && digits.all isDecimalDigit
    | (whole, some part) =>
      whole.all isDecimalDigit && !part.isEmpty && part.all isDecimalDigit
  | _ => false

def flagsFrom (start : List Char) : List Flag :=
  (flagNames.filter fun (name, _) => startsWith start name.toList).map Prod.snd

def isLongName (cs : List Char) : Bool :=
  startsWith ['-', '-'] cs

def wordOfPart (cs : List Char) : Except Stop Word :=
  let other := if isNegativeNumber cs || cs.contains ' ' then Word.operand (String.ofList cs) else .unknown
  if isLongName cs then
    let (start, value) := cutAt (· = '=') cs
    match flagsFrom start with
    | [] => return other
    | [f] => return .flag f true value
    | _ => throw .misuse
  else
    match flagOf? (cs.take 2) with
    | some f => return .flag f false (some (cs.drop 2))
    | none => return other

def wordOf (s : String) : Except Stop Word :=
  let cs := s.toList
  if cs.head? != some '-' || cs.length = 1 then return .operand s
  else
    match flagOf? cs with
    | some f => return .flag f (isLongName cs) none
    | none =>
      match cutAt (· = '=') cs with
      | (name, some value) =>
        match flagOf? name with
        | some f => return .flag f (isLongName name) (some value)
        | none => wordOfPart cs
      | (_, none) => wordOfPart cs

/-- The words of a command line; behind two hyphens, which belong nowhere, there are no flags. -/
def wordsOf : List String → Except Stop (List Word)
  | [] => return []
  | s :: rest =>
    if s = "--" then return .unknown :: rest.map .operand
    else do
      let w ← wordOf s
      return w :: (← wordsOf rest)

inductive Format where
  | json
  | csv
  deriving DecidableEq, Repr

def Format.ofName? (name : String) : Option Format :=
  if name = "json" then some .json
  else if name = "csv" then some .csv
  else none

structure Arguments where
  repositories : List String := []
  units : List String := []
  mode : Option IncludeMode := none
  output : Option String := none
  format : Option Format := none
  logLevel : Option String := none
  logFile : Option String := none
  isQuiet : Bool := false
  config : Option String := none

namespace Arguments

def logLevels : List String :=
  ["DEBUG", "INFO", "WARNING", "ERROR", "CRITICAL"]

def require {α : Type} : Option α → Except Stop α
  | some a => return a
  | none => throw .misuse

def store (a : Arguments) (f : Flag) (value : String) : Except Stop Arguments :=
  match f with
  | .repository => return { a with repositories := a.repositories ++ [value] }
  | .unit => return { a with units := a.units ++ [value] }
  | .mode => do return { a with mode := ← require (IncludeMode.ofName? (lowerText value)) }
  | .output => return { a with output := value }
  | .format => do return { a with format := ← require (Format.ofName? (lowerText value)) }
  | .logLevel =>
    if logLevels.contains value then return { a with logLevel := value } else throw .misuse
  | .logFile => return { a with logFile := value }
  | .config => return { a with config := value }
  | .help | .quiet => throw .misuse

def switch (a : Arguments) (f : Flag) : Except Stop Arguments :=
  match f with
  | .help => throw .help
  | .quiet => return { a with isQuiet := true }
  | _ => throw .misuse

structure Group where
  front : List Flag
  last : Flag
  value : Option String

def group (f : Flag) : List Char → Except Stop Group
  | [] => return ⟨[], f, none⟩
  | c :: rest =>
    if f.takesValue then return ⟨[], f, some (String.ofList (c :: rest))⟩
    else
      match flagOf? ['-', c] with
      | none => throw .misuse
      | some next => do
        let g ← group next rest
        return { g with front := f :: g.front }

def groupOf (f : Flag) (isLong : Bool) (attached : Option (List Char)) : Except Stop Group :=
  match attached with
  | none => return ⟨[], f, none⟩
  | some value =>
    if f.takesValue then return ⟨[], f, some (String.ofList value)⟩
    else if isLong || value.isEmpty then throw .misuse
    else group f value

def storeGroup (a : Arguments) (g : Group) (value : String) : Except Stop Arguments := do
  (← g.front.foldlM switch a).store g.last value

/-- Takes over the words from the left; a word that belongs to no flag is a misuse in the end. -/
def collect : List Word → Arguments → Bool → Except Stop Arguments
  | [], a, stray => if stray || a.units.isEmpty then throw .misuse else return a
  | .operand _ :: rest, a, _ => collect rest a true
  | .unknown :: rest, a, _ => collect rest a true
  | .flag f isLong attached :: rest, a, stray => do
    let g ← groupOf f isLong attached
    if !g.last.takesValue then collect rest (← (g.front ++ [g.last]).foldlM switch a) stray
    else
      match g.value with
      | some value => collect rest (← a.storeGroup g value) stray
      | none =>
        match rest with
        | .operand value :: rest => collect rest (← a.storeGroup g value) stray
        | _ => throw .misuse

def ofWords (args : List String) : Except Stop Arguments := do
  collect (← wordsOf args) {} false

end Arguments

end Provision.Command
