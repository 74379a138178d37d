import Provision.Yaml.Scalar
import Provision.Yaml.Stream
import Provision.Yaml.Token

namespace Provision.Yaml

/-- A place where a key may have begun: the token it is, and whether it has to be a key. -/
structure Candidate where
  token : Nat
  required : Bool
  /-- The number of characters from there on. -/
  left : Nat
  line : Nat
  column : Nat

structure Lexer where
  cursor : Cursor
  /-- The tokens, the last one first. -/
  recent : List Token := []
  /-- The number of tokens. -/
  count : Nat := 0
  /-- How many brackets are open. -/
  flow : Nat := 0
  /-- The column of the innermost block collection, and those around it. -/
  indent : Int := -1
  indents : List Int := []
  /-- Whether a key may begin here. -/
  allowKey : Bool := true
  /-- The candidates by the number of brackets around them. -/
  candidates : List (Nat × Candidate) := []

namespace Lexer

def push (t : Token) (l : Lexer) : Lexer :=
  { l with recent := t :: l.recent, count := l.count + 1 }

def insertAt (position : Nat) (t : Token) (l : Lexer) : Lexer :=
  { l with recent := l.recent.insertIdx (l.count - position) t, count := l.count + 1 }

def move (c : Cursor) (l : Lexer) : Lexer := { l with cursor := c }

def advance (l : Lexer) : Lexer := { l with cursor := l.cursor.next }

def allow (b : Bool) (l : Lexer) : Lexer := { l with allowKey := b }

/-- Behind blanks, comments and line ends; a line end allows a key outside of brackets. -/
def skipBlank : Nat → Lexer → Lexer
  | 0, l => l
  | fuel + 1, l =>
    let c := l.cursor.skipWhile (· = ' ')
    let c := if c.sees (· = '#') then c.skipWhile fun x => !isBreak x else c
    match c.lineBreak? with
    | some (_, after) =>
      skipBlank fuel { l with cursor := after, allowKey := l.allowKey || l.flow = 0 }
    | none => l.move c

def isStale (l : Lexer) (k : Candidate) : Bool :=
  k.line ≠ l.cursor.line || 1024 < k.left - l.cursor.left

def dropStale (l : Lexer) : Except Fault Lexer :=
  if l.candidates.any fun (_, k) => l.isStale k && k.required then throw .illFormed
  else return { l with candidates := l.candidates.filter fun (_, k) => !l.isStale k }

def candidate? (l : Lexer) : Option Candidate := l.candidates.lookup l.flow

def forget (l : Lexer) : Lexer :=
  { l with candidates := l.candidates.filter fun (level, _) => level ≠ l.flow }

def dropCandidate (l : Lexer) : Except Fault Lexer :=
  match l.candidate? with
  | some k => if k.required then throw .illFormed else return l.forget
  | none => return l

def saveCandidate (l : Lexer) : Except Fault Lexer :=
  if l.allowKey then do
    let required := l.flow = 0 ∧ l.indent = l.cursor.column
    let k : Candidate :=
      ⟨l.count, required, l.cursor.left, l.cursor.line, l.cursor.column⟩
    let l ← l.dropCandidate
    return { l with candidates := (l.flow, k) :: l.candidates }
  else return l

def unwindTo (column : Int) : List Int → Lexer → Lexer
  | [], l => l
  | outer :: rest, l =>
    if column < l.indent then
      unwindTo column rest ({ l with indent := outer, indents := rest }.push .blockEnd)
    else l

def unwind (column : Int) (l : Lexer) : Lexer :=
  if l.flow = 0 then unwindTo column l.indents l else l

/-- Opens a block collection at a column, if it is further right than the innermost. -/
def indentTo (column : Nat) (l : Lexer) : Option Lexer :=
  if l.indent < column then some { l with indent := column, indents := l.indent :: l.indents }
  else none

def openBlock (t : Token) (l : Lexer) : Lexer :=
  match l.indentTo l.cursor.column with
  | some l => l.push t
  | none => l

def closeAll (l : Lexer) : Except Fault Lexer := do
  let l ← (l.unwind (-1)).dropCandidate
  return l.allow false

/-! ### Directives, anchors and tags -/

def word (p : Char → Bool) (c : Cursor) : Except Fault (String × Cursor) := do
  let cs := c.rest.takeWhile p
  if cs.isEmpty then throw (Fault.before c.rest)
  let _ ← c.front (cs.length + 1)
  return (String.ofList cs, c.skip cs.length)

def skipSpaces (c : Cursor) : Cursor := c.skipWhile (· = ' ')

def versionNumber (c : Cursor) : Except Fault (Nat × Cursor) := do
  let (digits, c) ← word Char.isDigit c
  match Text.Numeral.int? 10 digits.toList with
  | some n => return (n.toNat, c)
  | none => throw (.failure .numeral)

def tagHandle (c : Cursor) : Except Fault (String × Cursor) :=
  match c.rest with
  | '!' :: rest =>
    let name := rest.takeWhile isWordChar
    match rest.drop name.length with
    | '!' :: _ => return (String.ofList ('!' :: name ++ ['!']), c.skip (name.length + 2))
    | ' ' :: _ => if name.isEmpty then return ("!", c.next) else throw .illFormed
    | rest => throw (Fault.before rest)
  | rest => throw (Fault.before rest)

def isUriChar (c : Char) : Bool :=
  c.isAlphanum || "-;/?:@&=+$,_.!~*'()[]%".toList.contains c

def uriEscapes : List Char → Except Fault (List UInt8 × List Char)
  | '%' :: a :: b :: rest =>
    match Text.hexDigit? a, Text.hexDigit? b with
    | some x, some y => do
      let (octets, rest) ← uriEscapes rest
      return (UInt8.ofNat (16 * x + y) :: octets, rest)
    | _, _ => throw .illFormed
  | '%' :: rest => throw (Fault.before (rest.dropWhile Text.isHexDigit))
  | rest => return ([], rest)

def uriText : Nat → List Char → Except Fault (List Char × Nat)
  | 0, _ => throw .illFormed
  | fuel + 1, cs =>
    match cs with
    | [] => return ([], 0)
    | '%' :: _ => do
      let (octets, rest) ← uriEscapes cs
      match String.fromUTF8? ⟨octets.toArray⟩ with
      | some s =>
        let (text, n) ← uriText fuel rest
        return (s.toList ++ text, 3 * octets.length + n)
      | none => throw (Fault.before rest)
    | c :: rest =>
      if isUriChar c then do
        let (text, n) ← uriText fuel rest
        return (c :: text, n + 1)
      else return ([], 0)

def uri (c : Cursor) : Except Fault (String × Cursor) := do
  if !c.sees isUriChar then throw (Fault.before c.rest)
  let (text, n) ← uriText (c.left + 1) c.rest
  return (String.ofList text, c.skip n)

def directive (c : Cursor) : Except Fault (Directive × Cursor) := do
  let (name, c) ← word isWordChar c.next
  if !endOr isSpaceOrBreak c.rest then throw .illFormed
  let (d, c) ←
    if name = "YAML" then do
      let (major, c) ← versionNumber (skipSpaces c)
      if !c.sees (· = '.') then throw (Fault.before c.rest)
      let (_, c) ← versionNumber c.next
      if !endOr isSpaceOrBreak c.rest then throw .illFormed
      pure (Directive.version major, c)
    else if name = "TAG" then do
      let (handle, c) ← tagHandle (skipSpaces c)
      if !c.sees (· = ' ') then throw (Fault.before c.rest)
      let (start, c) ← uri (skipSpaces c)
      if !endOr isSpaceOrBreak c.rest then throw .illFormed
      pure (Directive.tag handle start, c)
    else pure (Directive.other, c.skipWhile fun x => !isBreak x)
  return (d, ← c.skipLineRest)

def endsAnchor (c : Char) : Bool :=
  isWhite c || "?:,]\x7d%@`".toList.contains c

def anchorName (c : Cursor) : Except Fault (String × Cursor) := do
  let (name, c) ← word isWordChar c.next
  if endOr endsAnchor c.rest then return (name, c) else throw .illFormed

/-- Whether the tag's text begins with a handle: another mark follows before the next blank. -/
def hasHandle (c : Cursor) : Except Fault Bool := do
  let cs := c.rest.takeWhile fun x => !isSpaceOrBreak x
  if cs.contains '!' then return true
  let _ ← c.front (cs.length + 1)
  return false

def tagToken (c : Cursor) : Except Fault (Token × Cursor) := do
  let after := c.next
  let (t, c) ←
    if after.sees (· = '<') then do
      let (text, c) ← uri after.next
      if !c.sees (· = '>') then throw (Fault.before c.rest)
      pure (Token.tag none text, c.next)
    else if endOr isWhite after.rest then pure (Token.tag none "!", after)
    else do
      let (handle, c) ← if ← hasHandle after then tagHandle c else pure ("!", after)
      let (text, c) ← uri c
      pure (Token.tag (some handle) text, c)
  if endOr isSpaceOrBreak c.rest then return (t, c) else throw .illFormed

/-! ### One step -/

def node (read : Cursor → Except Fault (Token × Cursor)) (l : Lexer) : Except Fault Lexer := do
  let l ← l.saveCandidate
  let (t, c) ← read l.cursor
  return ((l.allow false).push t).move c

def marker (t : Token) (l : Lexer) : Except Fault Lexer := do
  let l ← l.closeAll
  return (l.push t).move (l.cursor.skip 3)

def openFlow (t : Token) (l : Lexer) : Except Fault Lexer := do
  let l ← l.saveCandidate
  return ({ l with flow := l.flow + 1, allowKey := true }.push t).advance

/-- Closes a bracket; one that none opened leaves no level for keys. -/
def closeFlow (t : Token) (l : Lexer) : Except Fault Lexer := do
  let l ← l.dropCandidate
  if l.flow = 0 then throw (Fault.before l.cursor.next.rest)
  return ({ l with flow := l.flow - 1, allowKey := false }.push t).advance

def flowEntry (l : Lexer) : Except Fault Lexer := do
  let l ← (l.allow true).dropCandidate
  return (l.push .flowEntry).advance

def blockEntry (l : Lexer) : Except Fault Lexer := do
  if l.flow = 0 ∧ !l.allowKey then throw .illFormed
  let l := if l.flow = 0 then l.openBlock .blockSequenceStart else l
  let l ← (l.allow true).dropCandidate
  return (l.push .blockEntry).advance

def explicitKey (l : Lexer) : Except Fault Lexer := do
  if l.flow = 0 ∧ !l.allowKey then throw .illFormed
  let l := if l.flow = 0 then l.openBlock .blockMappingStart else l
  let l ← (l.allow (l.flow = 0)).dropCandidate
  return (l.push .key).advance

/-- Turns the candidate of this level into a key, and opens a mapping for it where none is open. -/
def confirmKey (k : Candidate) (l : Lexer) : Lexer :=
  let l := l.forget.insertAt k.token .key
  if l.flow = 0 then
    match l.indentTo k.column with
    | some l => l.insertAt k.token .blockMappingStart
    | none => l
  else l

def colon (l : Lexer) : Except Fault Lexer := do
  match l.candidate? with
  | some k => return (((l.confirmKey k).allow false).push .value).advance
  | none =>
    if l.flow = 0 ∧ !l.allowKey then throw .illFormed
    let l := if l.flow = 0 then l.openBlock .blockMappingStart else l
    let l ← (l.allow (l.flow = 0)).dropCandidate
    return (l.push .value).advance

def blockScalar (folded : Bool) (l : Lexer) : Except Fault Lexer := do
  let l ← (l.allow true).dropCandidate
  let (text, c) ← Scalar.block folded l.indent l.cursor
  return (l.push (.scalar (String.ofList text) false)).move c

def quotedScalar (double : Bool) (l : Lexer) : Except Fault Lexer :=
  l.node fun c => do
    let (text, c) ← Scalar.quoted double c
    return (.scalar (String.ofList text) false, c)

def plainScalar (l : Lexer) : Except Fault Lexer := do
  let l ← l.saveCandidate
  let ((text, c), broken) ← Scalar.plain (l.flow ≠ 0) (l.indent + 1) l.cursor
  return ((l.allow broken).push (.scalar (String.ofList text) true)).move c

def isAlone (c : Cursor) : Except Fault Bool := do
  return endOr isWhite ((← c.front 2).drop 1)

def startsPlain (inFlow : Bool) (x : Char) (c : Cursor) : Except Fault Bool := do
  if isWhite x || "-?:,[]\x7b\x7d#&*!|>'\"%@`".toList.contains x then
    return !(← isAlone c) && (x = '-' || (!inFlow && (x = '?' || x = ':')))
  else return true

def dispatch (l : Lexer) (x : Char) : Except Fault Lexer := do
  let atStart := l.cursor.column = 0
  let inFlow := l.flow ≠ 0
  let startsDocument ← if atStart ∧ x = '-' then l.cursor.atMarker '-' else pure false
  let endsDocument ← if atStart ∧ x = '.' then l.cursor.atMarker '.' else pure false
  let alone ←
    if x = '-' ∨ (!inFlow ∧ (x = '?' ∨ x = ':')) then isAlone l.cursor else pure false
  if x = '%' ∧ atStart then
    let l ← l.closeAll
    let (d, c) ← directive l.cursor
    return (l.push (.directive d)).move c
  else if startsDocument then l.marker .documentStart
  else if endsDocument then l.marker .documentEnd
  else if x = '[' then l.openFlow .flowSequenceStart
  else if x = '{' then l.openFlow .flowMappingStart
  else if x = ']' then l.closeFlow .flowSequenceEnd
  else if x = '}' then l.closeFlow .flowMappingEnd
  else if x = ',' then l.flowEntry
  else if x = '-' ∧ alone then l.blockEntry
  else if x = '?' ∧ (inFlow ∨ alone) then l.explicitKey
  else if x = ':' ∧ (inFlow ∨ alone) then l.colon
  else if x = '*' then l.node fun c => do
    let (name, c) ← anchorName c
    return (.alias name, c)
  else if x = '&' then l.node fun c => do
    let (name, c) ← anchorName c
    return (.anchor name, c)
  else if x = '!' then l.node tagToken
  else if x = '|' ∧ !inFlow then l.blockScalar false
  else if x = '>' ∧ !inFlow then l.blockScalar true
  else if x = '\'' then l.quotedScalar false
  else if x = '"' then l.quotedScalar true
  else if ← startsPlain inFlow x l.cursor then l.plainScalar
  else throw .illFormed

/-- The next token behind blanks, with the tokens that it closes or opens; nothing at the end of the
text. A text that cannot be read to its end has its fault where more of it is asked for. -/
def step (ending : Option Fault) (l : Lexer) : Except Fault (Option Lexer) := do
  let l := (← l.dropStale).skipBlank (l.cursor.left + 1)
  match l.cursor.rest, ending with
  | [], some f => throw f
  | [], none => return none
  | x :: _, _ =>
    let l ← l.dropStale
    let l ← (l.unwind l.cursor.column).dispatch x
    match l.cursor.rest, ending with
    | [], some f => throw f
    | _, _ => return some l

def finish (l : Lexer) : Except Fault (List Token) := do
  let l ← (l.skipBlank (l.cursor.left + 1)).dropStale
  return (← l.closeAll).recent.reverse

/-- The tokens before the first of which it is open whether it is a key. -/
def settled (l : Lexer) : List Token :=
  let open_ := l.candidates.filter fun (_, k) => !l.isStale k
  l.recent.reverse.take (open_.foldl (fun n (_, k) => min n k.token) l.count)

/-- The tokens up to a fault; a text that is over too early has the fault behind it, if it has one. -/
def stop (ending : Option Fault) (f : Fault) (l : Lexer) : Tokens :=
  match f with
  | .cut => ⟨l.settled, some (ending.getD .illFormed)⟩
  | f => ⟨l.settled, some f⟩

def run (ending : Option Fault) : Nat → Lexer → Tokens
  | 0, l => l.stop ending .illFormed
  | fuel + 1, l =>
    match l.step ending with
    | .error f => l.stop ending f
    | .ok (some next) => run ending fuel next
    | .ok none =>
      match l.finish with
      | .ok tokens => ⟨tokens, none⟩
      | .error f => l.stop ending f

end Lexer

def Cursor.ofText (goesOn : Bool) (cs : List Char) : Cursor :=
  let c : Cursor := { rest := cs, left := cs.length, goesOn := goesOn }
  if c.sees (· = '\ufeff') then c.next else c

def Tokens.ofStream (s : Stream) : Tokens :=
  Lexer.run s.ending (s.characters.length + 2) 
    { cursor := Cursor.ofText s.ending.isSome s.characters }

end Provision.Yaml
