import Provision.Value.Literal

namespace Provision.Json

open Provision.Text

def escapeChar (c : Char) : List Char :=
  if c = '"' then ['\\', '"']
  else if c = '\\' then ['\\', '\\']
  else if c = '\n' then ['\\', 'n']
  else if c = '\r' then ['\\', 'r']
  else if c = '\t' then ['\\', 't']
  else if c = '\x08' then ['\\', 'b']
  else if c = '\x0c' then ['\\', 'f']
  else if c.toNat < 0x20 then '\\' :: 'u' :: hexDigits 4 c.toNat
  else [c]

def textLiteral (s : String) : List Char :=
  '"' :: s.toList.flatMap escapeChar ++ ['"']

/-- Numbers are written with the fewest digits; infinity and the undefined number as words. -/
def floatLayout : Decimal.Layout :=
  { Decimal.plain with infinity := "Infinity", undefined := "NaN" }

structure Layout where
  /-- The blanks of a line by which each level is indented; no lines at all without a value. -/
  indent : Option Nat
  comma : List Char
  colon : List Char

def oneLine : Layout := ⟨none, [','], [':']⟩

def indented : Layout := ⟨some 4, [','], [':', ' ']⟩

def Layout.newline (l : Layout) (level : Nat) : List Char :=
  match l.indent with
  | none => []
  | some width => '\n' :: List.replicate (width * level) ' '

abbrev Pieces := List (List Char)

def Layout.bracket (l : Layout) (level : Nat) (opening closing : Char) : List Pieces → Pieces
  | [] => [[opening, closing]]
  | first :: rest =>
    (opening :: l.newline (level + 1)) :: first ++
      rest.flatMap (fun element => (l.comma ++ l.newline (level + 1)) :: element) ++
      [l.newline level ++ [closing]]

mutual

def write (l : Layout) (level : Nat) : Value → Pieces
  | .null => ["null".toList]
  | .bool b => [(if b then "true" else "false").toList]
  | .int i => [(toString i).toList]
  | .float x => [(floatLayout.text x).toList]
  | .text s => [textLiteral s]
  | .bytes bs => [textLiteral (quotedBytes bs)]
  | .date d => [textLiteral d.iso]
  | .timestamp t => [textLiteral (t.iso "T")]
  | .pair a b => l.bracket level '[' ']' [write l (level + 1) a, write l (level + 1) b]
  | .list xs => l.bracket level '[' ']' (writeElements l (level + 1) xs)
  | .set xs => l.bracket level '[' ']' (writeElements l (level + 1) xs)
  | .map entries => l.bracket level '\x7b' '\x7d' (writeEntries l (level + 1) entries)
  | .knot _ v => write l level v
  | .again _ b => [textLiteral b.ellipsis]

def writeElements (l : Layout) (level : Nat) : List Value → List Pieces
  | [] => []
  | x :: xs => write l level x :: writeElements l level xs

def writeEntries (l : Layout) (level : Nat) : List (Value × Value) → List Pieces
  | [] => []
  | (k, v) :: rest =>
    (textLiteral k.display :: l.colon :: write l level v) :: writeEntries l level rest

end

def compact (v : Value) : String :=
  String.ofList (write oneLine 0 v).flatten

def prettyPieces (v : Value) : List String :=
  (write indented 0 v).map String.ofList

end Provision.Json
