import Provision.Failure

namespace Provision.Yaml

inductive Fault where
  | illFormed
  /-- The text is over where it has to go on. -/
  | cut
  /-- What is not about the form: a scalar that its type cannot hold, or a text that cannot be read. -/
  | failure (cause : Failure)

/-- The fault of a text that goes on in a wrong way. -/
def Fault.before (rest : List Char) : Fault :=
  if rest.isEmpty then .cut else .illFormed

def isAllowed (c : Char) : Bool :=
  let n := c.toNat
  n = 0x09 || n = 0x0A || n = 0x0D || (0x20 ≤ n && n ≤ 0x7E) || n = 0x85 ||
    (0xA0 ≤ n && n ≤ 0xD7FF) || (0xE000 ≤ n && n ≤ 0xFFFD) || 0x10000 ≤ n

def isBreak (c : Char) : Bool :=
  c = '\r' || c = '\n' || c = '\x85' || c = '\u2028' || c = '\u2029'

def isSpaceOrBreak (c : Char) : Bool :=
  c = ' ' || isBreak c

def isWhite (c : Char) : Bool :=
  c = ' ' || c = '\t' || isBreak c

def isFlowIndicator (c : Char) : Bool :=
  c = ',' || c = '[' || c = ']' || c = '{' || c = '}'

def isWordChar (c : Char) : Bool :=
  c.isAlphanum || c = '-' || c = '_'

def endOr (p : Char → Bool) : List Char → Bool
  | [] => true
  | c :: _ => p c

structure Cursor where
  rest : List Char
  /-- The number of characters that are left. -/
  left : Nat
  line : Nat := 0
  column : Nat := 0
  /-- Whether the text goes on behind `rest`, where it cannot be read. -/
  goesOn : Bool := false
  left_eq : left = rest.length := by rfl

namespace Cursor

def peek? (c : Cursor) : Option Char := c.rest.head?

def sees (c : Cursor) (p : Char → Bool) : Bool := c.rest.head?.any p

def front (n : Nat) (c : Cursor) : Except Fault (List Char) :=
  let cs := c.rest.take n
  if c.goesOn && cs.length < n then throw .cut else return cs

/-- One character on; of a carriage return and a line feed the second ends the line. -/
def next (c : Cursor) : Cursor :=
  match h : c.rest with
  | [] => c
  | x :: rest =>
    let c := { c with rest := rest, left := c.left - 1, left_eq := by simp [c.left_eq, h] }
    if isBreak x && !(x = '\r' && rest.head? = some '\n') then
      { c with line := c.line + 1, column := 0 }
    else if x = '\ufeff' then c
    else { c with column := c.column + 1 }

def skip : Nat → Cursor → Cursor
  | 0, c => c
  | n + 1, c => skip n c.next

def skipWhile (p : Char → Bool) (c : Cursor) : Cursor :=
  c.skip (c.rest.takeWhile p).length

def lineBreak? (c : Cursor) : Option (Char × Cursor) :=
  match c.rest with
  | '\r' :: '\n' :: _ => some ('\n', c.skip 2)
  | x :: _ =>
    if x = '\r' || x = '\n' || x = '\x85' then some ('\n', c.next)
    else if x = '\u2028' || x = '\u2029' then some (x, c.next)
    else none
  | [] => none

def skipBreak (c : Cursor) : Cursor :=
  match c.lineBreak? with
  | some (_, after) => after
  | none => c

def skipLineRest (c : Cursor) : Except Fault Cursor :=
  let c := c.skipWhile (· = ' ')
  let c := if c.sees (· = '#') then c.skipWhile fun x => !isBreak x else c
  if endOr isBreak c.rest then return c.skipBreak else throw .illFormed

/-- Whether three equal characters stand here with white space or nothing behind them. -/
def atMarker (mark : Char) (c : Cursor) : Except Fault Bool := do
  if (← c.front 3) = [mark, mark, mark] then return endOr isWhite ((← c.front 4).drop 3)
  else return false

def atDocumentMarker (c : Cursor) : Except Fault Bool := do
  if ← c.atMarker '-' then return true else c.atMarker '.'

end Cursor

end Provision.Yaml
