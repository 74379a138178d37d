import Provision.Decimal.Nearest
import Provision.Text.Numeral

namespace Provision.Decimal

open Provision.Text

def ofScientific (mantissa : Nat) (exponent : Int) : Float :=
  let places : Int := (Nat.toDigits 10 mantissa).length + exponent
  if mantissa = 0 then 0.0
  else if 400 < places then 1.0 / 0.0
  else if places < -400 then 0.0
  else ofRatio (mantissa * Nat.pow 10 exponent.toNat) (Nat.pow 10 (-exponent).toNat)

/-- The digits at the front, low lines between them allowed, and what follows. -/
def digitRun : List Char → List Nat × List Char
  | [] => ([], [])
  | c :: '_' :: next :: more =>
    match digitValue? c with
    | none => ([], c :: '_' :: next :: more)
    | some d =>
      if isDecimalDigit next then
        let (ds, rest) := digitRun (next :: more)
        (d :: ds, rest)
      else ([d], '_' :: next :: more)
  | c :: rest =>
    match digitValue? c with
    | none => ([], c :: rest)
    | some d =>
      let (ds, rest) := digitRun rest
      (d :: ds, rest)

def exponentOf? : List Char → Option Int
  | [] => some 0
  | e :: rest =>
    if e = 'e' ∨ e = 'E' then
      let (negative, body) := Numeral.sign rest
      match digitRun body with
      | ([], _) => none
      | (ds, []) =>
        let n := Numeral.ofDigits 10 ds
        some (if negative then -(n : Int) else n)
      | _ => none
    else none

def unsigned? (cs : List Char) : Option Float :=
  let name := String.ofList (cs.map Char.toLower)
  if name = "inf" ∨ name = "infinity" then some (1.0 / 0.0)
  else if name = "nan" then some (0.0 / 0.0)
  else
    let (whole, rest) := digitRun cs
    let (fraction, rest) := match rest with
      | '.' :: after => digitRun after
      | _ => ([], rest)
    if whole.isEmpty && fraction.isEmpty then none
    else do
      let e ← exponentOf? rest
      return ofScientific (Numeral.ofDigits 10 (whole ++ fraction)) (e - fraction.length)

def float? (cs : List Char) : Option Float :=
  let (negative, body) := Numeral.sign (Numeral.body cs)
  (unsigned? body).map fun x => if negative then -x else x

end Provision.Decimal
