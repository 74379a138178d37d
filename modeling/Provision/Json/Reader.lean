import Provision.Value.Key
import Provision.Decimal.Reader

namespace Provision.Json

open Provision.Text

inductive Fault where
  | illFormed
  | numeral
  | tooDeep
  deriving DecidableEq, Repr

def mostLevels : Nat := 980

inductive Fractions where
  | asFloat
  | asText
  deriving DecidableEq, Repr

def isSpace (c : Char) : Bool :=
  c = ' ' || c = '\t' || c = '\n' || c = '\r'

def skipSpace (cs : List Char) : List Char :=
  cs.dropWhile isSpace

def codeUnit? (a b c d : Char) : Option Nat := do
  return (((← hexDigit? a) * 16 + (← hexDigit? b)) * 16 + (← hexDigit? c)) * 16 + (← hexDigit? d)

def escaped? : Char → Option Char
  | '"' => some '"'
  | '\\' => some '\\'
  | '/' => some '/'
  | 'b' => some '\x08'
  | 'f' => some '\x0c'
  | 'n' => some '\n'
  | 'r' => some '\r'
  | 't' => some '\t'
  | _ => none

def pending (first : Option Nat) : List Element :=
  (first.map Element.half).toList

/-- Reads up to the closing quote; `first` is the first half of a pair that was just read. Two halves
in a row make up a character. -/
def readText (first : Option Nat) : List Char → Except Fault (List Element × List Char)
  | [] => throw .illFormed
  | '"' :: rest => return (pending first, rest)
  | '\\' :: 'u' :: a :: b :: c :: d :: rest =>
    match codeUnit? a b c d with
    | none => throw .illFormed
    | some n => do
      if isFirstHalf n then
        let (es, rest) ← readText (some n) rest
        return (pending first ++ es, rest)
      else
        let (es, rest) ← readText none rest
        if isSecondHalf n then
          match first with
          | some f => return (.char (joinHalves f n) :: es, rest)
          | none => return (.half n :: es, rest)
        else return (pending first ++ .char (Char.ofNat n) :: es, rest)
  | '\\' :: e :: rest =>
    match escaped? e with
    | none => throw .illFormed
    | some c => do
      let (es, rest) ← readText none rest
      return (pending first ++ .char c :: es, rest)
  | c :: rest => do
    if c.toNat < 0x20 ∨ c = '\\' then throw .illFormed
    let (es, rest) ← readText none rest
    return (pending first ++ .char c :: es, rest)

def textOf (es : List Element) : String :=
  String.ofList (es.flatMap Element.held)

def digitSpan (cs : List Char) : List Char × List Char :=
  cs.span Char.isDigit

def wholeSpan : List Char → List Char × List Char
  | '0' :: rest => (['0'], rest)
  | cs => digitSpan cs

def fractionSpan : List Char → List Char × List Char
  | '.' :: rest =>
    match digitSpan rest with
    | ([], _) => ([], '.' :: rest)
    | (ds, rest) => ('.' :: ds, rest)
  | cs => ([], cs)

def exponentSign : List Char → List Char × List Char
  | '+' :: rest => (['+'], rest)
  | '-' :: rest => (['-'], rest)
  | cs => ([], cs)

def exponentSpan : List Char → List Char × List Char
  | c :: rest =>
    if c = 'e' ∨ c = 'E' then
      let (sign, more) := exponentSign rest
      match digitSpan more with
      | ([], _) => ([], c :: rest)
      | (ds, rest) => (c :: sign ++ ds, rest)
    else ([], c :: rest)
  | [] => ([], [])

def readNumber (fractions : Fractions) (sign : List Char) (cs : List Char) :
    Except Fault (Value × List Char) :=
  let (whole, rest) := wholeSpan cs
  if whole.isEmpty then throw .illFormed
  else
    let (fraction, rest) := fractionSpan rest
    let (exponent, rest) := exponentSpan rest
    let written := sign ++ whole ++ fraction ++ exponent
    if fraction.isEmpty && exponent.isEmpty then
      match Numeral.int? 10 written with
      | some i => return (.int i, rest)
      | none => throw .numeral
    else
      match fractions with
      | .asText => return (.text (String.ofList written), rest)
      | .asFloat =>
        match Decimal.float? written with
        | some x => return (.float x, rest)
        | none => throw .illFormed

def words : List (String × Value) :=
  [("null", .null), ("true", .bool true), ("false", .bool false), ("NaN", .float (0.0 / 0.0)),
   ("Infinity", .float (1.0 / 0.0)), ("-Infinity", .float (-1.0 / 0.0))]

def readWord? (cs : List Char) : Option (Value × List Char) :=
  words.findSome? fun (word, v) =>
    let w := word.toList
    if w.isPrefixOf cs then some (v, cs.drop w.length) else none

mutual

/-- Reads a value at the front, inside of `level` brackets and at most `depth` brackets and elements
deep. -/
def readValue (fractions : Fractions) (level : Nat) :
    Nat → List Char → Except Fault (Value × List Char)
  | 0, _ => throw .illFormed
  | depth + 1, cs =>
    match cs with
    | '"' :: rest => do
      let (text, rest) ← readText none rest
      return (.text (textOf text), rest)
    | '[' :: rest =>
      if level = mostLevels then throw .tooDeep
      else
        match skipSpace rest with
        | ']' :: rest => return (.list [], rest)
        | rest => do
          let (xs, rest) ← readElements fractions (level + 1) depth rest
          return (.list xs, rest)
    | '{' :: rest =>
      if level = mostLevels then throw .tooDeep
      else
        match skipSpace rest with
        | '}' :: rest => return (.map [], rest)
        | rest => do
          let (entries, rest) ← readEntries fractions (level + 1) depth rest
          return (.map (Value.ofEntries entries), rest)
    | cs =>
      match readWord? cs with
      | some found => return found
      | none =>
        match cs with
        | '-' :: rest => readNumber fractions ['-'] rest
        | rest => readNumber fractions [] rest

def readElements (fractions : Fractions) (level : Nat) :
    Nat → List Char → Except Fault (List Value × List Char)
  | 0, _ => throw .illFormed
  | depth + 1, cs => do
    let (x, rest) ← readValue fractions level depth cs
    match skipSpace rest with
    | ']' :: rest => return ([x], rest)
    | ',' :: rest =>
      let (xs, rest) ← readElements fractions level depth (skipSpace rest)
      return (x :: xs, rest)
    | _ => throw .illFormed

def readEntries (fractions : Fractions) (level : Nat) :
    Nat → List Char → Except Fault (List (Value × Value) × List Char)
  | 0, _ => throw .illFormed
  | depth + 1, '"' :: cs => do
    let (key, rest) ← readText none cs
    match skipSpace rest with
    | ':' :: rest =>
      let (v, rest) ← readValue fractions level depth (skipSpace rest)
      let entry := (Value.text (textOf key), v)
      match skipSpace rest with
      | '}' :: rest => return ([entry], rest)
      | ',' :: rest =>
        let (entries, rest) ← readEntries fractions level depth (skipSpace rest)
        return (entry :: entries, rest)
      | _ => throw .illFormed
    | _ => throw .illFormed
  | _ + 1, _ => throw .illFormed

end

def read (fractions : Fractions) (cs : List Char) : Except Fault Value := do
  let (v, rest) ← readValue fractions 0 (2 * cs.length + 1) (skipSpace cs)
  if (skipSpace rest).isEmpty then return v else throw .illFormed

end Provision.Json
