import Provision.Text.Blank
import Provision.Text.Digit

namespace Provision.Text

namespace Numeral

/-- The length of the longest numeral that is read or written in a base that is no power of two. -/
def maxDigits : Nat := 4300

def digitIn (base : Nat) (c : Char) : Option Nat :=
  let value :=
    match digitValue? c with
    | some d => some d
    | none =>
      if c.isLower then some (c.toNat - 'a'.toNat + 10)
      else if c.isUpper then some (c.toNat - 'A'.toNat + 10)
      else none
  value.filter (· < base)

def digits? (base : Nat) : List Char → Option (List Nat)
  | [] => none
  | [c] => (digitIn base c).map ([·])
  | c :: '_' :: rest => do return (← digitIn base c) :: (← digits? base rest)
  | c :: rest => do return (← digitIn base c) :: (← digits? base rest)

def ofDigits (base : Nat) (ds : List Nat) : Nat :=
  ds.foldl (fun n d => n * base + d) 0

def sign : List Char → Bool × List Char
  | '-' :: rest => (true, rest)
  | '+' :: rest => (false, rest)
  | rest => (false, rest)

def dropMark (base : Nat) : List Char → List Char
  | '0' :: m :: rest =>
    if (base = 16 ∧ (m = 'x' ∨ m = 'X')) ∨ (base = 8 ∧ (m = 'o' ∨ m = 'O')) ∨
        (base = 2 ∧ (m = 'b' ∨ m = 'B')) then
      match rest with
      | '_' :: rest => rest
      | rest => rest
    else '0' :: m :: rest
  | cs => cs

def isPowerOfTwo (base : Nat) : Bool :=
  base = 2 || base = 8 || base = 16

/-- Blanks that may stand around a numeral; the information separators may not. -/
def isMargin (c : Char) : Bool :=
  isBlank c && !(0x1C ≤ c.toNat && c.toNat ≤ 0x1F)

def body (cs : List Char) : List Char :=
  trimWhile isMargin cs

def int? (base : Nat) (cs : List Char) : Option Int := do
  let (negative, body) := sign (body cs)
  let ds ← digits? base (dropMark base body)
  guard (isPowerOfTwo base || ds.length ≤ maxDigits)
  return if negative then -(ofDigits base ds : Int) else (ofDigits base ds : Int)

end Numeral

/-- The decimal numeral of an integer, unless it has more digits than are written. -/
def intText? (i : Int) : Option String :=
  if i.natAbs < Nat.pow 10 Numeral.maxDigits then some (toString i) else none

def twoDigits (n : Nat) : String :=
  if n < 10 then "0" ++ toString n else toString n

def zeroPadded (width n : Nat) : String :=
  let digits := toString n
  String.ofList (List.replicate (width - digits.length) '0') ++ digits

end Provision.Text
