import Provision.Value
import Provision.Decimal.Dyadic

namespace Provision.Value

/-! ### Residues -/

def modulus : Nat := Nat.pow 2 61 - 1

/-- The residue of `m * 2 ^ e`; the powers of two recur after 61. -/
def dyadicResidue (m : Nat) (e : Int) : Nat :=
  m % modulus * Nat.pow 2 (e % 61).toNat % modulus

def signedResidue (negative : Bool) (n : Nat) : Int :=
  let r : Int := if negative then -n else n
  if r = -1 then -2 else r

def residue? : Value → Option Int
  | .bool b => some (if b then 1 else 0)
  | .int i => some (signedResidue (i < 0) (i.natAbs % modulus))
  | .float x =>
    match Decimal.ofFloat x with
    | (_, .zero) => some 0
    | (negative, .finite d) => some (signedResidue negative (dyadicResidue d.mantissa d.exponent))
    | (negative, .infinite) => some (if negative then -314159 else 314159)
    | (_, .undefined) => none
  | _ => none

/-! ### Tables -/

/-- Keys with their residues at their places; the number of places is a power of two. -/
structure Table (α : Type) where
  places : Array (Option (Nat × α))

namespace Table

variable {α : Type}

def make (size : Nat) : Table α := ⟨Array.replicate size none⟩

def isFree (t : Table α) (i : Nat) : Bool := t.places[i]?.join.isNone

def runLength : Nat := 9

def freeInRun? (t : Table α) (i : Nat) : Option Nat :=
  let length := if i + runLength < t.places.size then runLength else 0
  ((List.range (length + 1)).map (i + ·)).find? t.isFree

/-- The place for a residue: runs are tried at places that follow from it. -/
def findFree (t : Table α) : (tries i : Nat) → (perturbation : Nat) → Nat
  | 0, i, _ => i
  | tries + 1, i, perturbation =>
    match t.freeInRun? i with
    | some place => place
    | none =>
      let perturbation := perturbation / 32
      t.findFree tries ((i * 5 + 1 + perturbation) % t.places.size) perturbation

def insertAt (hash : Nat) (a : α) (t : Table α) : Table α :=
  let place := t.findFree (16 * t.places.size + 16) (hash % t.places.size) hash
  ⟨t.places.setIfInBounds place (some (hash, a))⟩

def entries (t : Table α) : List (Nat × α) := t.places.toList.filterMap id

def sizeFor (n : Nat) : Nat → Nat → Nat
  | 0, size => size
  | fuel + 1, size => if size ≤ n then sizeFor n fuel (2 * size) else size

def resize (n : Nat) (t : Table α) : Table α :=
  t.entries.foldl (fun t (hash, a) => t.insertAt hash a) (make (sizeFor n 64 8))

def isFull (t : Table α) (n : Nat) : Bool :=
  3 * (t.places.size - 1) ≤ 5 * n

def add (t : Table α) (hash : Nat) (a : α) : Table α :=
  let t := t.insertAt hash a
  let n := t.entries.length
  if t.isFull n then t.resize (4 * n) else t

end Table

def enumerated {α : Type} (valueOf : α → Value) (keys : List α) : List α :=
  match keys.mapM fun k => (residue? (valueOf k)).map fun r => ((r % Int.pow 2 64).toNat, k) with
  | none => keys
  | some hashed =>
    let start : Table α := .make 8
    let start := if start.isFull keys.length then start.resize (2 * keys.length) else start
    (hashed.foldl (fun t (hash, k) => t.add hash k) start).entries.map Prod.snd

end Provision.Value
