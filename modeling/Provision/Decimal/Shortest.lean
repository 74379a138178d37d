import Provision.Decimal.Dyadic

namespace Provision.Decimal

structure Scientific where
  digits : Nat
  exponent : Int
  deriving DecidableEq, Repr

/-- A value with the bounds of the numbers that round to it, as numerators over one denominator. -/
structure Interval where
  low : Nat
  value : Nat
  high : Nat
  denominator : Nat
  closed : Bool

def Dyadic.interval (d : Dyadic) : Interval :=
  let below := if d.mantissa = Nat.pow 2 52 ∧ -1074 < d.exponent then 1 else 2
  let scale := Nat.pow 2 (d.exponent - 2).toNat
  { low := (4 * d.mantissa - below) * scale
    value := 4 * d.mantissa * scale
    high := (4 * d.mantissa + 2) * scale
    denominator := Nat.pow 2 (2 - d.exponent).toNat
    closed := d.mantissa % 2 = 0 }

def tenPower (e : Int) : Nat × Nat :=
  (Nat.pow 10 e.toNat, Nat.pow 10 (-e).toNat)

def Interval.contains (i : Interval) (s : Scientific) : Bool :=
  let (num, den) := tenPower s.exponent
  let point := s.digits * num * i.denominator
  if i.closed then i.low * den ≤ point && point ≤ i.high * den
  else i.low * den < point && point < i.high * den

def Interval.distance (i : Interval) (s : Scientific) : Nat :=
  let (num, den) := tenPower s.exponent
  let point := s.digits * num * i.denominator
  (point - i.value * den) + (i.value * den - point)

def Interval.floor (i : Interval) (e : Int) : Nat :=
  let (num, den) := tenPower e
  i.value * den / (i.denominator * num)

def Interval.onGrid? (i : Interval) (e : Int) : Option Scientific :=
  let lower : Scientific := ⟨i.floor e, e⟩
  let upper : Scientific := ⟨i.floor e + 1, e⟩
  if i.contains lower then
    if i.contains upper ∧ (i.distance upper < i.distance lower ∨
        i.distance upper = i.distance lower ∧ lower.digits % 2 = 1) then some upper
    else some lower
  else if i.contains upper then some upper
  else none

def Interval.magnitudeBelow (i : Interval) : Nat → Nat → Int
  | 0, places => 1 - places
  | fuel + 1, places =>
    if i.denominator ≤ i.value * Nat.pow 10 places then 1 - places
    else i.magnitudeBelow fuel (places + 1)

/-- The `k` with `10 ^ (k - 1) ≤ value < 10 ^ k`. -/
def Interval.magnitude (i : Interval) : Int :=
  if i.denominator ≤ i.value then (Nat.toDigits 10 (i.value / i.denominator)).length
  else i.magnitudeBelow 330 1

/-- The first hit on the grids of `n`, `n + 1`, ... digits. -/
def Interval.search (i : Interval) (k : Int) : Nat → Nat → Scientific
  | 0, n => ⟨i.floor (k - n), k - n⟩
  | fuel + 1, n =>
    match i.onGrid? (k - n) with
    | some s => s
    | none => i.search k fuel (n + 1)

def Dyadic.shortest (d : Dyadic) : Scientific :=
  let i := d.interval
  i.search i.magnitude 17 1

end Provision.Decimal
