import Provision.Yaml.Object

namespace Provision.Yaml

namespace Objects

/-- A value with the labels that it goes back to. -/
abbrev Open := Value × List Nat

abbrev Closed := Array (Option Value)

def openAll (parts : List Open) : List Value × List Nat :=
  (parts.map Prod.fst, (parts.flatMap Prod.snd).eraseDups)

/-- A container whose parts go back to `labels`; on a way back it needs a label of its own. -/
def labelled (label : Nat) (v : Value) (labels : List Nat) : Open :=
  if labels.isEmpty then (v, []) else (.knot label v, labels.filter (· ≠ label))

def keep (place : Nat) (v : Open) : StateM Closed Open := do
  if v.2.isEmpty then modify fun closed => closed.setIfInBounds place (some v.1)
  return v

def pairLabel (s : Objects) (place position : Nat) : Nat :=
  s.nodes.size * (position + 1) + place

def pairValues (s : Objects) (place position : Nat) : List (Open × Open) → List Open
  | [] => []
  | (a, b) :: rest =>
    let labels := (a.2 ++ b.2).eraseDups
    labelled (s.pairLabel place position) (.pair a.1 b.1) labels ::
      pairValues s place (position + 1) rest

def bracketsOf : Object → Brackets
  | .map _ => .map
  | _ => .list

/-- The value of a node's object inside of the containers `within`, of which there are less than
`depth`. -/
def follow (s : Objects) (within : List Nat) (place : Nat) : Nat → StateM Closed Open
  | 0 => return (.null, [])
  | depth + 1 => do
    if let some v := (← get)[place]?.join then return (v, [])
    let part := fun i => follow s (place :: within) i depth
    match s.object? place with
    | none => return (.null, [])
    | some o =>
      if within.contains place then return (.again place (bracketsOf o), [place])
      else
        match o with
        | .single v => return (v, [])
        | .undefined => return (.float (0.0 / 0.0), [])
        | .list items =>
          let (xs, labels) := openAll (← items.mapM part)
          keep place (labelled place (.list xs) labels)
        | .pairs items =>
          let pairs ← items.mapM fun (k, v) => do return (← part k, ← part v)
          let (xs, labels) := openAll (pairValues s place 0 pairs)
          keep place (labelled place (.list xs) labels)
        | .map entries =>
          let (xs, labels) := openAll (← entries.mapM fun (_, v) => part v)
          let keys := entries.map fun (k, _) => s.singleValue k
          keep place (labelled place (.map (keys.zip xs)) labels)
        | .set keys => keep place (.set (keys.map fun k => s.singleValue k), [])

def value (s : Objects) (root : Nat) : Value :=
  (follow s [] root (s.nodes.size + 1) (Array.replicate s.nodes.size none)).1.1

end Objects

def read (floats : Bool) (text : Stream) : Except Fault Value := do
  match ← Graph.ofStream floats text with
  | none => return .null
  | some g => return (← Objects.ofGraph g).value g.root

end Provision.Yaml
