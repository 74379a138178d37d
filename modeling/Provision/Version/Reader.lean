import Provision.Failure

namespace Provision

open Provision.Text

namespace Version

def number (raw piece : List Char) : Except Failure Nat :=
  if piece.isEmpty || !piece.all isDigit then throw (.version (.text (String.ofList raw)))
  else
    match Numeral.int? 10 piece with
    | some i => return i.toNat
    | none => throw .numeral

def dotted : List (List Char) → List Char
  | [] => []
  | [piece] => piece
  | piece :: pieces => piece ++ '.' :: dotted pieces

def ofTrimmed (raw : List Char) : Except Failure Version := do
  let pieces := splitOnChar '.' raw
  let numbers ← (pieces.take 3).mapM (number raw)
  let qualifier := dotted (pieces.drop 3)
  if 3 < pieces.length ∧ qualifier.isEmpty then throw (.version (.text (String.ofList raw)))
  if !qualifier.all isQualifierChar then throw (.qualifier (.text (String.ofList qualifier)))
  return ⟨numbers.getD 0 0, numbers.getD 1 0, numbers.getD 2 0, String.ofList qualifier⟩

def ofChars (cs : List Char) : Except Failure Version :=
  let raw := trim cs
  if raw.isEmpty then return {} else ofTrimmed raw

def textOf (reject : Value → Failure) : Value → Except Failure String
  | .text s => return s
  | .bool b => return Value.boolLiteral b
  | .float x => return Decimal.text x
  | .int i =>
    match intText? i with
    | some s => return s
    | none => throw .numeral
  | v => throw (reject v)

def ofValue : Value → Except Failure Version
  | .null => return {}
  | v => do ofChars (← textOf .version v).toList

end Version

namespace VersionRange

/-- A range, unless nothing can lie between its bounds. -/
def checked (r : VersionRange) : Except Failure VersionRange :=
  if r.Ordered then return r else throw (.emptyRange r)

def ofBracketed (raw : List Char) (opening closing : Char) (body : List Char) :
    Except Failure VersionRange :=
  match cutAt (· = ',') body with
  | (_, none) => throw (.range (.text (String.ofList raw)))
  | (lower, some upper) => do
    if upper.contains ',' then throw (.range (.text (String.ofList raw)))
    let minimum ← Version.ofChars lower
    let maximum ← if upper.all isBlank then pure none else some <$> Version.ofChars upper
    checked ⟨minimum, opening = '[', maximum, closing = ']'⟩

def ofTrimmed (raw : List Char) : Except Failure VersionRange :=
  match raw with
  | [] => return any
  | opening :: rest =>
    if opening = '[' ∨ opening = '(' then
      match rest.getLast? with
      | some closing =>
        if closing = ']' ∨ closing = ')' then ofBracketed raw opening closing rest.dropLast
        else throw (.range (.text (String.ofList raw)))
      | none => throw (.range (.text (String.ofList raw)))
    else do
      let minimum ← Version.ofChars raw
      return { minimum := minimum }

def ofChars (cs : List Char) : Except Failure VersionRange :=
  ofTrimmed (trim cs)

def ofValue : Value → Except Failure VersionRange
  | .null => return any
  | v => do ofChars (← Version.textOf .range v).toList

def isOpen : Value → Bool
  | .null => true
  | .text s => isBlankText s
  | _ => false

def exactlyValue (v : Value) : Except Failure VersionRange :=
  return exactly (← Version.ofValue v)

end VersionRange

end Provision
