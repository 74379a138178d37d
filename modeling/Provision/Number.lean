import Provision.Value.Literal
import Provision.Decimal.Nearest
import Provision.Failure

namespace Provision.Value

def floatIsBelow (x : Float) (i : Int) : Bool :=
  match Decimal.ofFloat x with
  | (_, .zero) => 0 < i
  | (negative, .finite d) =>
    let m : Int := if negative then -d.mantissa else d.mantissa
    m * Int.pow 2 d.exponent.toNat < i * Int.pow 2 (-d.exponent).toNat
  | (negative, .infinite) => negative
  | (_, .undefined) => false

def isAbove (x : Float) : Value → Except Failure Bool
  | .bool b => return floatIsBelow x (if b then 1 else 0)
  | .int i => return floatIsBelow x i
  | .float y => return decide (x < y)
  | _ => throw .wrongType

def toFloat : Value → Except Failure Float
  | .bool b => return if b then 1.0 else 0.0
  | .int i =>
    let x := Decimal.ofInt i
    if x.isFinite then return x else throw .overflow
  | .float x => return x
  | _ => throw .wrongType

def toInteger : Value → Except Failure Int
  | .bool b => return if b then 1 else 0
  | .int i => return i
  | _ => throw .wrongType

/-- The product with a positive integer; a text or a list is repeated. -/
def times (n : Nat) : Value → Except Failure Value
  | .bool b => return .int (if b then n else 0)
  | .int i => return .int (i * n)
  | .float x => do return .float (x * (← toFloat (.int n)))
  | .text s => return .text (String.join (List.replicate n s))
  | .list xs => return .list (List.replicate n xs).flatten
  | _ => throw .wrongType

def longestWait : Nat := 9223372036

/-- Fails for what cannot be waited for: less than no time, more than can be counted, and what is no
number. -/
def checkWait : Value → Except Failure Unit
  | .bool _ => return ()
  | .int i =>
    if longestWait < i.natAbs then throw .overflow
    else if i < 0 then throw .numeral
    else return ()
  | .float x =>
    let nanoseconds := x * 1000000000.0
    if x.isNaN then throw .numeral
    else if nanoseconds < -9223372036854775808.0 || 9223372036854775808.0 ≤ nanoseconds then
      throw .overflow
    else if x < 0.0 then throw .numeral
    else return ()
  | _ => throw .wrongType

end Provision.Value
