import Provision.Decimal.Shortest

namespace Provision.Decimal

structure Layout where
  /-- Most places before the point in positional notation. -/
  mostPlaces : Int
  /-- Most zeros between the point and the first digit, as a negative number of places. -/
  leastPlaces : Int
  /-- What follows a whole number. -/
  whole : String
  infinity : String
  undefined : String

def plain : Layout := ⟨16, -3, ".0", "inf", "nan"⟩

def significant (s : Scientific) : List Char :=
  let ds := ((Nat.toDigits 10 s.digits).reverse.dropWhile (· == '0')).reverse
  if ds.isEmpty then ['0'] else ds

def zeros (n : Nat) : List Char := List.replicate n '0'

def exponentText (e : Int) : String :=
  let digits := toString e.natAbs
  (if e < 0 then "e-" else "e+") ++ (if digits.length < 2 then "0" ++ digits else digits)

def Layout.positive (l : Layout) (s : Scientific) : String :=
  let ds := significant s
  let places : Int := (Nat.toDigits 10 s.digits).length + s.exponent
  if l.leastPlaces ≤ places ∧ places ≤ l.mostPlaces then
    if places ≤ 0 then String.ofList ("0.".toList ++ zeros (-places).toNat ++ ds)
    else if ds.length ≤ places.toNat then
      String.ofList (ds ++ zeros (places.toNat - ds.length)) ++ l.whole
    else String.ofList (ds.take places.toNat ++ '.' :: ds.drop places.toNat)
  else
    let mantissa := match ds with
      | [d] => [d]
      | d :: rest => d :: '.' :: rest
      | [] => []
    String.ofList mantissa ++ exponentText (places - 1)

def Layout.text (l : Layout) (x : Float) : String :=
  let (negative, magnitude) := ofFloat x
  let mark := if negative then "-" else ""
  match magnitude with
  | .zero => mark ++ "0" ++ l.whole
  | .finite d => mark ++ l.positive d.shortest
  | .infinite => mark ++ l.infinity
  | .undefined => l.undefined

def text (x : Float) : String := plain.text x

end Provision.Decimal
