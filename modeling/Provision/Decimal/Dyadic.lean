namespace Provision.Decimal

structure Dyadic where
  mantissa : Nat
  exponent : Int
  deriving DecidableEq, Repr

inductive Magnitude where
  | zero
  | finite (value : Dyadic)
  | infinite
  | undefined
  deriving DecidableEq, Repr

def ofBits (bits : Nat) : Bool × Magnitude :=
  let negative := bits / Nat.pow 2 63 % 2 == 1
  let exponent : Nat := bits / Nat.pow 2 52 % Nat.pow 2 11
  let fraction : Nat := bits % Nat.pow 2 52
  let magnitude :=
    if exponent = Nat.pow 2 11 - 1 then
      if fraction = 0 then .infinite else .undefined
    else if exponent = 0 then
      if fraction = 0 then .zero else .finite ⟨fraction, -1074⟩
    else .finite ⟨fraction + Nat.pow 2 52, (exponent : Int) - 1075⟩
  (negative, magnitude)

def ofFloat (x : Float) : Bool × Magnitude :=
  ofBits x.toBits.toNat

def toInt? (x : Float) : Option Int :=
  match ofFloat x with
  | (_, .zero) => some 0
  | (negative, .finite ⟨m, q⟩) =>
    let n? := if 0 ≤ q then some (m * Nat.pow 2 q.toNat)
      else if m % Nat.pow 2 (-q).toNat = 0 then some (m / Nat.pow 2 (-q).toNat) else none
    n?.map fun n => if negative then -(n : Int) else n
  | _ => none

/-- The integer next to a finite floating point number on the side of zero. -/
def truncate? (x : Float) : Option Int :=
  match ofFloat x with
  | (_, .zero) => some 0
  | (negative, .finite ⟨m, q⟩) =>
    let n := if 0 ≤ q then m * Nat.pow 2 q.toNat else m / Nat.pow 2 (-q).toNat
    some (if negative then -(n : Int) else n)
  | _ => none

end Provision.Decimal
