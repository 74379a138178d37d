import Provision.Calendar
import Provision.Text.Element

namespace Provision

inductive Brackets where
  | list
  | map
  | pair
  deriving DecidableEq, Repr

/-- A value as a document holds it; a map and a set keep the order of their keys. -/
inductive Value where
  | null
  | bool (b : Bool)
  | int (i : Int)
  | float (x : Float)
  | text (s : String)
  | bytes (bs : List UInt8)
  | date (d : Date)
  | timestamp (t : Timestamp)
  | pair (a b : Value)
  | list (xs : List Value)
  | map (entries : List (Value × Value))
  | set (keys : List Value)
  /-- A container that contains itself. -/
  | knot (label : Nat) (v : Value)
  /-- The container of the knot around with this label. -/
  | again (label : Nat) (brackets : Brackets)
  deriving Inhabited

namespace Value

/-- The value of a text key, the last one where a key is repeated. -/
def get? (key : String) : List (Value × Value) → Option Value
  | [] => none
  | (k, v) :: rest =>
    match get? key rest with
    | some found => some found
    | none =>
      match k with
      | .text s => if s = key then some v else none
      | _ => none

/-- Whether a value counts as absent in a document: null, false, zero or empty. -/
def isEmpty : Value → Bool
  | .null => true
  | .bool b => !b
  | .int i => i == 0
  | .float x => x == 0.0
  | .text s => s.isEmpty
  | .bytes bs => bs.isEmpty
  | .list xs => xs.isEmpty
  | .map entries => entries.isEmpty
  | .set keys => keys.isEmpty
  | .date _ | .timestamp _ | .pair _ _ | .knot _ _ | .again _ _ => false

/-! ### Knots -/

mutual

def replace (label : Nat) (w : Value) : Value → Value
  | .again l b => if l = label then w else .again l b
  | .knot l v => if l = label then .knot l v else .knot l (replace label w v)
  | .pair a b => .pair (replace label w a) (replace label w b)
  | .list xs => .list (replaceIn label w xs)
  | .map entries => .map (replaceInEntries label w entries)
  | .set keys => .set keys
  | .null => .null
  | .bool b => .bool b
  | .int i => .int i
  | .float x => .float x
  | .text s => .text s
  | .bytes bs => .bytes bs
  | .date d => .date d
  | .timestamp t => .timestamp t

def replaceIn (label : Nat) (w : Value) : List Value → List Value
  | [] => []
  | x :: xs => replace label w x :: replaceIn label w xs

def replaceInEntries (label : Nat) (w : Value) : List (Value × Value) → List (Value × Value)
  | [] => []
  | (k, v) :: rest => (k, replace label w v) :: replaceInEntries label w rest

end

/-- A value as the container it is: a knot is opened by tying it anew at every way back. -/
def opened : Value → Value
  | .knot label v => replace label (.knot label v) v
  | v => v

def elements? (v : Value) : Option (List Value) :=
  match v.opened with
  | .text s => some ((Text.elements s.toList).map fun e => .text (String.ofList e.held))
  | .bytes bs => some (bs.map fun b => .int b.toNat)
  | .pair a b => some [a, b]
  | .list xs => some xs
  | .map entries => some (entries.map Prod.fst)
  | .set keys => some keys
  | _ => none

def isKey : Value → Bool
  | .list _ | .map _ | .set _ | .knot _ _ | .again _ _ => false
  | .pair a b => a.isKey && b.isKey
  | _ => true

end Value

end Provision
