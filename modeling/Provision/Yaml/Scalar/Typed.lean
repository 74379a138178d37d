import Provision.Decimal.Reader
import Provision.Text.Case
import Provision.Yaml.Tag

namespace Provision.Yaml

open Provision.Text

namespace Scalar

def withoutLines (cs : List Char) : List Char := cs.filter (· ≠ '_')

def int (base : Nat) (cs : List Char) : Except Fault Int :=
  match Numeral.int? base cs with
  | some i => return i
  | none => throw (.failure .numeral)

def float (cs : List Char) : Except Fault Float :=
  match Decimal.float? cs with
  | some x => return x
  | none => throw (.failure .numeral)

def intMagnitude (cs : List Char) : Except Fault Int :=
  match cs with
  | [] => throw (.failure .emptyScalar)
  | ['0'] => return 0
  | '0' :: 'b' :: digits => int 2 digits
  | '0' :: 'x' :: digits => int 16 digits
  | '0' :: _ => int 8 cs
  | _ =>
    if cs.contains ':' then do
      let parts ← (splitOnChar ':' cs).mapM (int 10)
      return parts.foldl (fun n part => n * 60 + part) 0
    else int 10 cs

def readInt (text : String) : Except Fault Value := do
  match withoutLines text.toList with
  | [] => throw (.failure .emptyScalar)
  | '-' :: rest => return .int (-(← intMagnitude rest))
  | '+' :: rest => return .int (← intMagnitude rest)
  | cs => return .int (← intMagnitude cs)

def atPlace (part : Float) (place : Nat) : Except Fault Float :=
  let x := Decimal.ofInt place
  if x.isFinite then return part * x else throw (.failure .overflow)

/-- The sum of digits of base sixty, the last one first, the first of them standing at `place`. -/
def sixties (place : Nat) (sum : Float) : List Float → Except Fault Float
  | [] => return sum
  | part :: parts => do sixties (place * 60) (sum + (← atPlace part place)) parts

def undefinedName : List Char := ".nan".toList

def floatMagnitude (cs : List Char) : Except Fault Float :=
  if cs = ".inf".toList then return 1.0 / 0.0
  else if cs = undefinedName then return 0.0 / 0.0
  else if cs.contains ':' then do
    let parts ← (splitOnChar ':' cs).mapM float
    sixties 1 0.0 parts.reverse
  else float cs

def isUndefined (text : String) : Bool :=
  Form.dropSign (lower (withoutLines text.toList)) = undefinedName

def readFloat (text : String) : Except Fault Value := do
  match lower (withoutLines text.toList) with
  | [] => throw (.failure .emptyScalar)
  | '-' :: rest => return .float (-(← floatMagnitude rest))
  | '+' :: rest => return .float (← floatMagnitude rest)
  | cs => return .float (← floatMagnitude cs)

def readBool (text : String) : Except Fault Value :=
  let name := lowerText text
  if ["yes", "true", "on"].contains name then return .bool true
  else if ["no", "false", "off"].contains name then return .bool false
  else throw (.failure .unknownScalar)

def sextet? (c : Char) : Option Nat :=
  if 'A' ≤ c ∧ c ≤ 'Z' then some (c.toNat - 'A'.toNat)
  else if 'a' ≤ c ∧ c ≤ 'z' then some (c.toNat - 'a'.toNat + 26)
  else if c.isDigit then some (c.toNat - '0'.toNat + 52)
  else if c = '+' then some 62
  else if c = '/' then some 63
  else none

/-- Octets of groups of four characters; `group` holds the values of the one begun and `pads` counts
the padding met in it. Characters of no value are passed over. -/
def octets (group : List Nat) (pads : Nat) : List Char → Option (List UInt8)
  | [] => if group.isEmpty then some [] else none
  | '=' :: rest =>
    if 2 ≤ group.length ∧ 4 ≤ group.length + pads + 1 then some []
    else octets group (if 2 ≤ group.length then pads + 1 else pads) rest
  | c :: rest =>
    match sextet? c with
    | none => octets group pads rest
    | some v =>
      match group with
      | [a] => (octets [a, v] 0 rest).map (UInt8.ofNat (a * 4 + v / 16) :: ·)
      | [a, b] => (octets [a, b, v] 0 rest).map (UInt8.ofNat (b % 16 * 16 + v / 4) :: ·)
      | [_, _, x] => (octets [] 0 rest).map (UInt8.ofNat (x % 4 * 64 + v) :: ·)
      | _ => octets [v] 0 rest

def readBinary (text : String) : Except Fault Value :=
  if text.toList.all fun c => c.toNat < 0x80 then
    match octets [] 0 text.toList with
    | some bytes => return .bytes bytes
    | none => throw .illFormed
  else throw .illFormed

def natOf (digits : List Char) : Nat :=
  Numeral.ofDigits 10 (digits.map fun c => c.toNat - '0'.toNat)

def microOf (fraction : List Char) : Nat :=
  let digits := fraction.take 6
  natOf (digits ++ List.replicate (6 - digits.length) '0')

def zoneOffset : Option (Char × List Char × List Char) → Int
  | none => 0
  | some (s, hours, minutes) =>
    let offset : Int := natOf hours * 60 + natOf minutes
    if s = '-' then -offset else offset

def readTimestamp (text : String) : Except Fault Value :=
  match TimestampParts.ofChars? text.toList with
  | none => throw (.failure .unmatchedScalar)
  | some p =>
    match Date.ofParts? (natOf p.year) (natOf p.month) (natOf p.day), p.time with
    | some date, none => return .date date
    | some date, some (hour, minute, second, fraction) =>
      match Timestamp.ofParts? date (natOf hour) (natOf minute) (natOf second) (microOf fraction)
          (p.zone.map zoneOffset) with
      | some t => return .timestamp t
      | none => throw (.failure .numeral)
    | none, _ => throw (.failure .numeral)

def read (tag : Tag) (text : String) : Except Fault Value :=
  match tag with
  | .null => return .null
  | .bool => readBool text
  | .int => readInt text
  | .float => readFloat text
  | .text => return .text text
  | .binary => readBinary text
  | .timestamp => readTimestamp text
  | _ => throw .illFormed

end Scalar

end Provision.Yaml
