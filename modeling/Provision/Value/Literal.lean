import Provision.Value
import Provision.Text.Numeral
import Provision.Text.Quoted
import Provision.Decimal.Layout

namespace Provision

open Provision.Text

def Date.literal (d : Date) : String :=
  s!"datetime.date({d.year}, {d.month}, {d.day})"

def Timestamp.zoneLiteral (minutes : Int) : String :=
  if minutes = 0 then "datetime.timezone.utc"
  else
    let seconds := minutes * 60
    let span := if seconds < 0 then s!"days=-1, seconds={seconds + 86400}" else s!"seconds={seconds}"
    s!"datetime.timezone(datetime.timedelta({span}))"

def Timestamp.literal (t : Timestamp) : String :=
  let parts := [t.date.year, t.date.month, t.date.day, t.hour, t.minute] ++
    (if t.second = 0 ∧ t.micro = 0 then [] else [t.second]) ++
    (if t.micro = 0 then [] else [t.micro])
  let zone := t.offset.map fun minutes => "tzinfo=" ++ zoneLiteral minutes
  "datetime.datetime(" ++ join ", " (parts.map toString ++ zone.toList) ++ ")"

def Brackets.ellipsis : Brackets → String
  | .list => "[...]"
  | .map => "\x7b...\x7d"
  | .pair => "(...)"

namespace Value

def boolLiteral (b : Bool) : String :=
  if b then "True" else "False"

def brackets : Value → Brackets
  | .map _ => .map
  | .pair _ _ => .pair
  | _ => .list

mutual

/-- The literal of a value inside of the knots with the labels `within`. -/
def literalWithin (within : List Nat) : Value → String
  | .null => "None"
  | .bool b => boolLiteral b
  | .int i => toString i
  | .float x => Decimal.text x
  | .text s => quoted s
  | .bytes bs => quotedBytes bs
  | .date d => d.literal
  | .timestamp t => t.literal
  | .pair a b => "(" ++ literalWithin within a ++ ", " ++ literalWithin within b ++ ")"
  | .list xs => "[" ++ join ", " (literals within xs) ++ "]"
  | .map entries => "\x7b" ++ join ", " (entryLiterals within entries) ++ "\x7d"
  | .set keys =>
    if keys.isEmpty then "set()" else "\x7b" ++ join ", " (literals within keys) ++ "\x7d"
  | .knot label v =>
    if within.contains label then v.brackets.ellipsis else literalWithin (label :: within) v
  | .again _ b => b.ellipsis

def literals (within : List Nat) : List Value → List String
  | [] => []
  | x :: xs => literalWithin within x :: literals within xs

def entryLiterals (within : List Nat) : List (Value × Value) → List String
  | [] => []
  | (k, v) :: rest =>
    (literalWithin within k ++ ": " ++ literalWithin within v) :: entryLiterals within rest

end

def literal (v : Value) : String :=
  v.literalWithin []

mutual

def isWritable : Value → Bool
  | .int i => (intText? i).isSome
  | .pair a b => isWritable a && isWritable b
  | .list xs => areWritable xs
  | .map entries => entriesAreWritable entries
  | .set keys => areWritable keys
  | .knot _ v => isWritable v
  | .null | .bool _ | .float _ | .text _ | .bytes _ | .date _ | .timestamp _ | .again _ _ => true

def areWritable : List Value → Bool
  | [] => true
  | x :: xs => isWritable x && areWritable xs

def entriesAreWritable : List (Value × Value) → Bool
  | [] => true
  | (k, v) :: rest => isWritable k && isWritable v && entriesAreWritable rest

end

/-- The text a value turns into: a text itself, a date in its standard form, else the literal. -/
def display : Value → String
  | .text s => s
  | .date d => d.iso
  | .timestamp t => t.iso " "
  | v => v.literal

end Value

end Provision
