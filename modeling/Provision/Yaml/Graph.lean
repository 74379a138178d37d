import Provision.Yaml.Node
import Provision.Yaml.Token.Lexer

namespace Provision.Yaml

namespace Graph

abbrev Handles := List (String × String)

def defaultHandles : Handles := [("!", "!"), ("!!", Tag.standardStart)]

structure Settings where
  floats : Bool
  handles : Handles

structure State where
  tokens : List Token
  /-- The fault behind the tokens. -/
  ending : Option Fault
  nodes : Nodes := #[]
  anchors : List (String × Nat) := []

abbrev Parser := StateT State (Except Fault)

def fail {α : Type} : Parser α := throw .illFormed

def peek? : Parser (Option Token) := do
  let s ← get
  match s.tokens, s.ending with
  | [], some f => throw f
  | tokens, _ => return tokens.head?

def drop : Parser Unit := modify fun s => { s with tokens := s.tokens.drop 1 }

def accept (p : Token → Bool) : Parser Bool := do
  let found := (← peek?).any p
  if found then drop
  return found

def sees (p : Token → Bool) : Parser Bool := return (← peek?).any p

def add (n : Node) : Parser Nat :=
  modifyGet fun s => (s.nodes.size, { s with nodes := s.nodes.push n })

def setNode (place : Nat) (n : Node) : Parser Unit :=
  modify fun s => { s with nodes := s.nodes.setIfInBounds place n }

def addAnchored (anchor : Option String) (n : Node) : Parser Nat := do
  match anchor with
  | none => add n
  | some name =>
    if (← get).anchors.any fun (a, _) => a = name then fail
    let place ← add n
    modify fun s => { s with anchors := (name, place) :: s.anchors }
    return place

def aliased (name : String) : Parser Nat := do
  match (← get).anchors.lookup name with
  | some place => return place
  | none => fail

def properties : Parser (Option String × Option (Option String × String)) := do
  match ← peek? with
  | some (.anchor a) =>
    drop
    match ← peek? with
    | some (.tag h t) => drop; return (some a, some (h, t))
    | _ => return (some a, none)
  | some (.tag h t) =>
    drop
    match ← peek? with
    | some (.anchor a) => drop; return (some a, some (h, t))
    | _ => return (none, some (h, t))
  | _ => return (none, none)

/-- The full text of a tag; the lone mark asks for the type that the node would have without it. -/
def tagText (handles : Handles) : Option (Option String × String) → Parser (Option String)
  | none => return none
  | some (none, t) => return if t = "!" then none else some t
  | some (some h, t) =>
    match handles.lookup h with
    | some start => return if start ++ t = "!" then none else some (start ++ t)
    | none => fail

structure Front where
  anchor : Option String
  /-- The text of the tag, unless it is the lone mark. -/
  tag : Option String
  /-- Whether the tag is the lone mark. -/
  isMarked : Bool
  /-- Whether anything stands there, so that the node itself may be left out. -/
  isWritten : Bool

def front (s : Settings) : Parser Front := do
  let (anchor, written) ← properties
  let tag ← tagText s.handles written
  return ⟨anchor, tag, written.isSome && tag.isNone, anchor.isSome || written.isSome⟩

/-- The type of a scalar: its tag, else the form of a plain or marked one, else text. -/
def scalarTag (s : Settings) (f : Front) (isPlain : Bool) (text : String) : Tag :=
  match f.tag with
  | some t => Tag.ofText t
  | none => if isPlain || f.isMarked then Tag.ofPlain s.floats text else .text

def collectionTag (usual : Tag) (f : Front) : Tag := f.tag.elim usual Tag.ofText

def leftOut (s : Settings) (f : Front) : Parser Nat :=
  if f.isWritten then addAnchored f.anchor (.scalar (scalarTag s f true "") "") else fail

def mostLevels : Nat := 490

def collection {α : Type} (f : Front) (level : Nat) (make : List α → Node)
    (read : Parser (List α)) : Parser Nat := do
  let place ← addAnchored f.anchor (make [])
  if mostLevels ≤ level then throw (.failure .exhausted)
  setNode place (make (← read))
  return place

inductive Place where
  | inFlow
  | inBlock
  /-- The key or value of a block mapping, where a sequence needs no indentation. -/
  | inMapping
  deriving DecidableEq

def isBlockEntry : Token → Bool
  | .blockEntry => true
  | _ => false

def isBlockEnd : Token → Bool
  | .blockEnd => true
  | _ => false

def isKey : Token → Bool
  | .key => true
  | _ => false

def isValue : Token → Bool
  | .value => true
  | _ => false

def isFlowEntry : Token → Bool
  | .flowEntry => true
  | _ => false

def isFlowSequenceEnd : Token → Bool
  | .flowSequenceEnd => true
  | _ => false

def isFlowMappingEnd : Token → Bool
  | .flowMappingEnd => true
  | _ => false

def presentUnless (p : Token → Bool) (read : Parser Nat) : Parser Nat := do
  if ← sees p then add .absent else read

mutual

/-- A node at a place inside of `level` collections, at most `depth` nodes and parts deep. -/
def node (s : Settings) (place : Place) (level : Nat) : Nat → Parser Nat
  | 0 => fail
  | depth + 1 => do
    match ← peek? with
    | some (.alias name) => drop; aliased name
    | _ => content s place level (← front s) depth
termination_by structural depth => depth

def content (s : Settings) (place : Place) (level : Nat) (f : Front) : Nat → Parser Nat
  | 0 => fail
  | depth + 1 => do
    let sequence := collection f level (Node.sequence (collectionTag .sequence f))
    let mapping := collection f level (Node.mapping (collectionTag .mapping f))
    match ← peek? with
    | some (.scalar text isPlain) =>
      drop
      addAnchored f.anchor (.scalar (scalarTag s f isPlain text) text)
    | some .flowSequenceStart => sequence do
      drop
      flowItems s true (level + 1) depth
    | some .flowMappingStart => mapping do
      drop
      flowEntries s true (level + 1) depth
    | some .blockEntry =>
      if place = .inMapping then sequence (bareItems s (level + 1) depth) else leftOut s f
    | some .blockSequenceStart =>
      if place = .inFlow then leftOut s f
      else sequence do
        drop
        blockItems s (level + 1) depth
    | some .blockMappingStart =>
      if place = .inFlow then leftOut s f
      else mapping do
        drop
        blockEntries s (level + 1) depth
    | _ => leftOut s f
termination_by structural depth => depth

def blockItems (s : Settings) (level : Nat) : Nat → Parser (List Nat)
  | 0 => fail
  | depth + 1 => do
    if ← accept isBlockEntry then
      let n ← presentUnless (fun t => isBlockEntry t || isBlockEnd t) (node s .inBlock level depth)
      return n :: (← blockItems s level depth)
    else if ← accept isBlockEnd then return []
    else fail
termination_by structural depth => depth

def bareItems (s : Settings) (level : Nat) : Nat → Parser (List Nat)
  | 0 => fail
  | depth + 1 => do
    if ← accept isBlockEntry then
      let n ← presentUnless (fun t => isBlockEntry t || isKey t || isValue t || isBlockEnd t)
        (node s .inBlock level depth)
      return n :: (← bareItems s level depth)
    else return []
termination_by structural depth => depth

def blockEntries (s : Settings) (level : Nat) : Nat → Parser (List (Nat × Nat))
  | 0 => fail
  | depth + 1 => do
    let part := presentUnless (fun t => isKey t || isValue t || isBlockEnd t) (node s .inMapping level depth)
    if ← accept isKey then
      let k ← part
      let v ← if ← accept isValue then part else add .absent
      return (k, v) :: (← blockEntries s level depth)
    else if ← accept isBlockEnd then return []
    else fail
termination_by structural depth => depth

/-- The items of a sequence in brackets; an item may be a mapping of one entry. -/
def flowItems (s : Settings) (isFirst : Bool) (level : Nat) : Nat → Parser (List Nat)
  | 0 => fail
  | depth + 1 => do
    if ← accept isFlowSequenceEnd then return []
    else
      if !isFirst then
        if !(← accept isFlowEntry) then fail
      if ← sees isKey then
        let n ← collection ⟨none, none, false, false⟩ level (Node.mapping .mapping) do
          drop
          let ends := fun t => isFlowEntry t || isFlowSequenceEnd t
          let k ← presentUnless (fun t => isValue t || ends t) (node s .inFlow (level + 1) depth)
          let v ← if ← accept isValue then presentUnless ends (node s .inFlow (level + 1) depth)
            else add .absent
          return [(k, v)]
        return n :: (← flowItems s false level depth)
      else if ← accept isFlowSequenceEnd then return []
      else
        let n ← node s .inFlow level depth
        return n :: (← flowItems s false level depth)
termination_by structural depth => depth

def flowEntries (s : Settings) (isFirst : Bool) (level : Nat) : Nat → Parser (List (Nat × Nat))
  | 0 => fail
  | depth + 1 => do
    if ← accept isFlowMappingEnd then return []
    else
      if !isFirst then
        if !(← accept isFlowEntry) then fail
      let ends := fun t => isFlowEntry t || isFlowMappingEnd t
      if ← accept isKey then
        let k ← presentUnless (fun t => isValue t || ends t) (node s .inFlow level depth)
        let v ← if ← accept isValue then presentUnless ends (node s .inFlow level depth) else add .absent
        return (k, v) :: (← flowEntries s false level depth)
      else if ← accept isFlowMappingEnd then return []
      else
        let k ← node s .inFlow level depth
        return (k, ← add .absent) :: (← flowEntries s false level depth)
termination_by structural depth => depth

end

/-- The handles that directives declare, each once; a version is given once and is 1 point something. -/
def directives : Nat → Bool → Handles → Parser Handles
  | 0, _, _ => fail
  | fuel + 1, hasVersion, handles => do
    match ← peek? with
    | some (.directive (.version major)) =>
      drop
      if hasVersion || major ≠ 1 then fail
      directives fuel true handles
    | some (.directive (.tag handle start)) =>
      drop
      if handles.any fun (h, _) => h = handle then fail
      directives fuel hasVersion ((handle, start) :: handles)
    | some (.directive .other) =>
      drop
      directives fuel hasVersion handles
    | _ => return handles

def isDocumentEnd : Token → Bool
  | .documentEnd => true
  | _ => false

def isDocumentStart : Token → Bool
  | .documentStart => true
  | _ => false

def isDirective : Token → Bool
  | .directive _ => true
  | _ => false

def skipEnds : Nat → Parser Unit
  | 0 => return ()
  | fuel + 1 => do
    if ← accept isDocumentEnd then skipEnds fuel

def opening (size : Nat) : Parser Handles := do
  let handles ← directives (size + 1) false []
  if !(← accept isDocumentStart) then fail
  return handles ++ defaultHandles

def ending (size : Nat) : Parser Unit := do
  skipEnds size
  if (← peek?).isSome then
    let _ ← opening size
    fail

def document (floats : Bool) (size : Nat) : Parser (Option Nat) := do
  if (← peek?).isNone then return none
  let root ←
    if ← sees fun t => isDirective t || isDocumentStart t then do
      let handles ← opening size
      let isEnd := (← peek?).all fun t => isDirective t || isDocumentStart t || isDocumentEnd t
      if isEnd then add .absent
      else node ⟨floats, handles⟩ .inBlock 0 (4 * size + 8)
    else node ⟨floats, defaultHandles⟩ .inBlock 0 (4 * size + 8)
  ending size
  return some root

def ofStream (floats : Bool) (text : Stream) : Except Fault (Option Graph) := do
  let ⟨tokens, ending⟩ := Tokens.ofStream text
  let (root, s) ← (document floats tokens.length).run { tokens := tokens, ending := ending }
  return root.map fun r => ⟨s.nodes, r⟩

end Graph

end Provision.Yaml
