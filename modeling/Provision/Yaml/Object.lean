import Provision.Value.Enumeration
import Provision.Value.Key
import Provision.Yaml.Graph
import Provision.Yaml.Merge
import Provision.Yaml.Scalar.Typed

namespace Provision.Yaml

inductive Object where
  | single (v : Value)
  /-- The undefined number written by its name, which is the same wherever it occurs. -/
  | undefined
  | list (items : List Nat)
  | pairs (items : List (Nat × Nat))
  | map (entries : List (Nat × Nat))
  | set (keys : List Nat)

namespace Object

def isSingle : Object → Bool
  | .single _ | .undefined => true
  | _ => false

def empty? : Tag → Option Object
  | .sequence => some (.list [])
  | .mapping => some (.map [])
  | .set => some (.set [])
  | .orderedMap | .pairs => some (.pairs [])
  | _ => none

end Object

structure Objects where
  nodes : Nodes
  made : Array (Option Object)
  /-- The containers to be filled next, in order. -/
  waiting : Array Nat := #[]

namespace Objects

abbrev Maker := StateT Objects (Except Fault)

def object? (place : Nat) (s : Objects) : Option Object :=
  s.made[place]?.join

def put (place : Nat) (o : Object) : Maker Unit :=
  modify fun s => { s with made := s.made.setIfInBounds place (some o) }

/-- The text that a node offers where a scalar is asked for: a mapping that of its value, `depth`
mappings deep at most. -/
def scalarText (nodes : Nodes) : Nat → Nat → Except Fault String
  | 0, _ => throw (.failure .exhausted)
  | depth + 1, place =>
    match nodes.node place with
    | .scalar _ s => return s
    | .mapping _ entries =>
      match entries.find? fun (k, _) => nodes.tagAt k = .value with
      | some (_, v) => scalarText nodes depth v
      | none => throw .illFormed
    | .sequence _ _ => throw .illFormed

def requireScalar : Node → Except Fault Unit
  | .scalar _ _ => return ()
  | _ => throw (.failure .wrongType)

def singleOf (nodes : Nodes) (place : Nat) (tag : Tag) : Except Fault Object := do
  if !tag.isScalar then throw .illFormed
  let text ← scalarText nodes (nodes.size + 1) place
  if tag = .timestamp then requireScalar (nodes.node place)
  if tag = .float && Scalar.isUndefined text then return .undefined
  return .single (← Scalar.read tag text)

/-- Makes the object of a node, unless it is there; a container is filled later. -/
def visit (place : Nat) : Maker Unit := do
  let s ← get
  if (s.object? place).isNone then
    let tag := s.nodes.tagAt place
    match Object.empty? tag with
    | some o =>
      put place o
      modify fun s => { s with waiting := s.waiting.push place }
    | none => put place (← singleOf s.nodes place tag)

def singleValue (place : Nat) (s : Objects) : Value :=
  match s.object? place with
  | some (.single v) => v
  | some .undefined => .float (0.0 / 0.0)
  | _ => .null

/-- Whether two nodes are the same key: one object, or equal values. -/
def sameKey (s : Objects) (a b : Nat) : Bool :=
  a = b ||
    match s.object? a, s.object? b with
    | some .undefined, some .undefined => true
    | some (.single v), some (.single w) => Value.sameKey v w
    | _, _ => false

def insert (s : Objects) (key value : Nat) : List (Nat × Nat) → List (Nat × Nat)
  | [] => [(key, value)]
  | (k, v) :: rest =>
    if s.sameKey k key then (k, value) :: rest else (k, v) :: insert s key value rest

def visitEntry (entries : List (Nat × Nat)) (entry : Nat × Nat) : Maker (List (Nat × Nat)) := do
  visit entry.1
  if !((← get).object? entry.1).all Object.isSingle then throw .illFormed
  visit entry.2
  return insert (← get) entry.1 entry.2 entries

def entriesOf (place : Nat) : Maker (List (Nat × Nat)) := do
  match (← get).nodes.node place with
  | .mapping _ _ =>
    let nodes ← Merge.mergeAt place (← get).nodes
    modify fun s => { s with nodes := nodes }
    (nodes.entriesAt place).foldlM visitEntry []
  | _ => throw .illFormed

def itemsOf (place : Nat) : Maker (List Nat) := do
  match (← get).nodes.node place with
  | .sequence _ items => return items
  | _ => throw .illFormed

def pairOf (place : Nat) : Maker (Nat × Nat) := do
  match (← get).nodes.node place with
  | .mapping _ [(k, v)] =>
    visit k
    visit v
    return (k, v)
  | _ => throw .illFormed

def fill (place : Nat) : Maker Unit := do
  match (← get).object? place with
  | some (.list _) =>
    let items ← itemsOf place
    items.forM visit
    put place (.list items)
  | some (.pairs _) => put place (.pairs (← (← itemsOf place).mapM pairOf))
  | some (.map _) => put place (.map (← entriesOf place))
  | some (.set _) =>
    let keys := (← entriesOf place).map Prod.fst
    let s ← get
    put place (.set (Value.enumerated (fun k => s.singleValue k) keys))
  | _ => return ()

/-- Fills containers until none is left, each batch with those met while the one before was filled. -/
def fillAll : Nat → Maker Unit
  | 0 => return ()
  | fuel + 1 => do
    let batch := (← get).waiting
    if batch.isEmpty then return ()
    modify fun s => { s with waiting := #[] }
    batch.toList.forM fill
    fillAll fuel

def ofGraph (g : Graph) : Except Fault Objects := do
  let start : Objects := { nodes := g.nodes, made := Array.replicate g.nodes.size none }
  let make : Maker Unit := do
    visit g.root
    fillAll (g.nodes.size + 1)
  return (← make.run start).2

end Objects

end Provision.Yaml
