import Provision.Yaml.Node

namespace Provision.Yaml.Merge

abbrev Step := Nat → Nodes → Except Fault Nodes

def takeMapping (mergeAt : Step) (place : Nat) (nodes : Nodes) :
    Except Fault (Nodes × List (Nat × Nat)) := do
  match nodes.node place with
  | .mapping _ _ =>
    let nodes ← mergeAt place nodes
    return (nodes, nodes.entriesAt place)
  | _ => throw .illFormed

/-- The entries of several mappings, the last one's first. -/
def takeItems (mergeAt : Step) : List Nat → Nodes → Except Fault (Nodes × List (Nat × Nat))
  | [], nodes => return (nodes, [])
  | place :: rest, nodes => do
    let (nodes, entries) ← takeMapping mergeAt place nodes
    let (nodes, others) ← takeItems mergeAt rest nodes
    return (nodes, others ++ entries)

def take (mergeAt : Step) (place : Nat) (nodes : Nodes) :
    Except Fault (Nodes × List (Nat × Nat)) :=
  match nodes.node place with
  | .mapping _ _ => takeMapping mergeAt place nodes
  | .sequence _ items => takeItems mergeAt items nodes
  | .scalar _ _ => throw .illFormed

def setEntries (place : Nat) (entries : List (Nat × Nat)) (nodes : Nodes) : Nodes :=
  nodes.setIfInBounds place (.mapping (nodes.tagAt place) entries)

def retagAt (place : Nat) (nodes : Nodes) : Nodes :=
  nodes.setIfInBounds place (nodes.node place).asText

def isOpen (nodes : Nodes) (entry : Nat × Nat) : Bool :=
  let tag := nodes.tagAt entry.1
  tag = .merge || tag = .value

/-- Goes on with a mapping of which the entries `own` are passed and `rest` are left; `merged` are the
entries taken over. A mapping that merges itself is complete once that is done. -/
def mergeFrom (mergeAt : Step) (place : Nat) (own merged : List (Nat × Nat)) :
    List (Nat × Nat) → Nodes → Except Fault Nodes
  | [], nodes => return setEntries place (merged ++ own) nodes
  | (k, v) :: rest, nodes =>
    if nodes.tagAt k = .merge then do
      let (nodes, entries) ← take mergeAt v (setEntries place (own ++ rest) nodes)
      let present := nodes.entriesAt place
      let merged := merged ++ entries
      if present.any (isOpen nodes) then mergeFrom mergeAt place own merged rest nodes
      else return setEntries place (merged ++ present) nodes
    else if nodes.tagAt k = .value then
      mergeFrom mergeAt place (own ++ [(k, v)]) merged rest (retagAt k nodes)
    else mergeFrom mergeAt place (own ++ [(k, v)]) merged rest nodes

def mergeWithin : Nat → Step
  | 0, _, _ => throw .illFormed
  | depth + 1, place, nodes =>
    mergeFrom (mergeWithin depth) place [] [] (nodes.entriesAt place) nodes

def size (nodes : Nodes) : Nat :=
  (nodes.toList.map fun n => match n with
    | .mapping _ entries => entries.length
    | _ => 0).foldr (· + ·) 0

/-- Merges the mapping at a place; every level takes one entry away that merges. -/
def mergeAt (place : Nat) (nodes : Nodes) : Except Fault Nodes :=
  if (nodes.entriesAt place).any (isOpen nodes) then mergeWithin (size nodes + 1) place nodes
  else return nodes

end Provision.Yaml.Merge
