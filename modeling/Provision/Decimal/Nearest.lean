import Provision.Decimal.Dyadic

namespace Provision.Decimal

/-- A quotient rounded to an integer, a half to the even one. -/
def roundDiv (num den : Nat) : Nat :=
  let q := num / den
  let twice := 2 * (num % den)
  if den < twice ∨ (twice = den ∧ q % 2 = 1) then q + 1 else q

/-- The `b` with `2 ^ b ≤ num / den < 2 ^ (b + 1)`. -/
def binaryMagnitude (num den : Nat) : Int :=
  let b : Int := (Nat.log2 num : Int) - Nat.log2 den
  if den * Nat.pow 2 b.toNat ≤ num * Nat.pow 2 (-b).toNat then b else b - 1

def lastBit (num den : Nat) : Int :=
  max (binaryMagnitude num den - 52) (-1074)

def infinityBits : Nat := (Nat.pow 2 11 - 1) * Nat.pow 2 52

/-- The bits of the number nearest to a positive quotient. A mantissa that is rounded up to the next
power of two counts into the exponent, whose bits stand above it. -/
def nearestBits (num den : Nat) : Nat :=
  let e := lastBit num den
  let mantissa := roundDiv (num * Nat.pow 2 (-e).toNat) (den * Nat.pow 2 e.toNat)
  min ((e + 1074).toNat * Nat.pow 2 52 + mantissa) infinityBits

def ofRatio (num den : Nat) : Float :=
  if num = 0 then 0.0 else Float.ofBits (UInt64.ofNat (nearestBits num den))

def ofInt (i : Int) : Float :=
  let x := ofRatio i.natAbs 1
  if i < 0 then -x else x

end Provision.Decimal
