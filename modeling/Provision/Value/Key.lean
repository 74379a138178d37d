import Provision.Value
import Provision.Decimal.Dyadic

namespace Provision.Value

def asInt? : Value → Option Int
  | .bool b => some (if b then 1 else 0)
  | .int i => some i
  | .float x => Decimal.toInt? x
  | _ => none

def sameKey (a b : Value) : Bool :=
  match a, b with
  | .null, .null => true
  | .text s, .text t => s == t
  | .bytes xs, .bytes ys => xs == ys
  | .date d, .date e => d == e
  | .timestamp t, .timestamp u => t.same u
  | .pair a b, .pair c d => sameKey a c && sameKey b d
  | .float x, .float y => x == y
  | a, b =>
    match a.asInt?, b.asInt? with
    | some i, some j => i == j
    | _, _ => false

def insert (key value : Value) : List (Value × Value) → List (Value × Value)
  | [] => [(key, value)]
  | (k, v) :: rest =>
    if sameKey k key then (k, value) :: rest else (k, v) :: insert key value rest

def ofEntries (entries : List (Value × Value)) : List (Value × Value) :=
  entries.foldl (fun acc (k, v) => insert k v acc) []

end Provision.Value
