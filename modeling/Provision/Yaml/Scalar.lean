import Provision.Yaml.Cursor

namespace Provision.Yaml.Scalar

abbrev Piece := List Char × Cursor

/-! ### Plain scalars -/

def plainRun (inFlow : Bool) : List Char → List Char
  | [] => []
  | c :: rest =>
    if isWhite c || (inFlow && (isFlowIndicator c || c = '?')) ||
        (c = ':' && endOr (fun x => isWhite x || (inFlow && isFlowIndicator x)) rest) then []
    else c :: plainRun inFlow rest

def plainBreaks : Nat → Cursor → Except Fault (Option Piece)
  | 0, c => return some ([], c)
  | fuel + 1, c => do
    if c.sees (· = ' ') then plainBreaks fuel c.next
    else
      match c.lineBreak? with
      | none => return some ([], c)
      | some (b, after) =>
        if ← after.atDocumentMarker then return none
        return (← plainBreaks fuel after).map fun (bs, c) => (b :: bs, c)

/-- A first line end, folded into those that follow it. -/
def fold (first : Char) (more : List Char) : List Char :=
  if first ≠ '\n' then first :: more
  else if more.isEmpty then [' ']
  else more

def plainSpaces (c : Cursor) : Except Fault (Piece × Bool) := do
  let spaces := c.rest.takeWhile (· = ' ')
  let c := c.skip spaces.length
  match c.lineBreak? with
  | none => return ((spaces, c), false)
  | some (b, after) =>
    if ← after.atDocumentMarker then return (([], after), true)
    match ← plainBreaks after.left after with
    | none => return (([], after), true)
    | some (bs, c) => return ((fold b bs, c), true)

/-- Behind a run; a colon at its end needs a character behind it, which shows whether it belongs to
the run. -/
def skipRun (run : List Char) (c : Cursor) : Except Fault Cursor := do
  let c := c.skip run.length
  if c.sees (· = ':') then let _ ← c.front 2
  return c

/-- A plain scalar from the second run on, `indent` being its least column outside of brackets. -/
def plainFrom (inFlow : Bool) (indent : Int) :
    Nat → List Char → Bool → Cursor → Except Fault (Piece × Bool)
  | 0, _, broken, c => return (([], c), broken)
  | fuel + 1, spaces, broken, c => do
    let run := if c.sees (· = '#') then [] else plainRun inFlow c.rest
    let c ← skipRun run c
    if run.isEmpty then return (([], c), broken)
    let ((next, c), broke) ← plainSpaces c
    if next.isEmpty || c.sees (· = '#') || (!inFlow && (c.column : Int) < indent) then
      return ((spaces ++ run, c), broke)
    let ((text, c), broke) ← plainFrom inFlow indent fuel next broke c
    return ((spaces ++ run ++ text, c), broke)

def plain (inFlow : Bool) (indent : Int) (c : Cursor) : Except Fault (Piece × Bool) := do
  let ((characters, c), broken) ← plainFrom inFlow indent (c.left + 1) [] false c
  return ((Text.ofCharacters characters, c), broken)

/-! ### Quoted scalars -/

def escapes : List (Char × Char) :=
  [('0', '\x00'), ('a', '\x07'), ('b', '\x08'), ('t', '\t'), ('\t', '\t'), ('n', '\n'),
   ('v', '\x0b'), ('f', '\x0c'), ('r', '\r'), ('e', '\x1b'), (' ', ' '), ('"', '"'),
   ('\\', '\\'), ('/', '/'), ('N', '\x85'), ('_', '\xa0'), ('L', '\u2028'), ('P', '\u2029')]

def codeLength? : Char → Option Nat
  | 'x' => some 2
  | 'u' => some 4
  | 'U' => some 8
  | _ => none

def hexNumber? (cs : List Char) : Option Nat :=
  (cs.mapM Text.hexDigit?).map (Text.Numeral.ofDigits 16)

/-- What a code stands for; the halves of a pair stay apart. -/
def codeElement (n : Nat) : Except Fault Text.Element :=
  if Nat.pow 2 31 ≤ n then throw (.failure .overflow)
  else if 0x110000 ≤ n then throw (.failure .numeral)
  else if Text.isFirstHalf n || Text.isSecondHalf n then return .half n
  else return .char (Char.ofNat n)

def quotedBreaks : Nat → Cursor → Except Fault Piece
  | 0, _ => throw .illFormed
  | fuel + 1, c => do
    if ← c.atDocumentMarker then throw .illFormed
    let c := c.skipWhile fun x => x = ' ' || x = '\t'
    match c.lineBreak? with
    | none => return ([], c)
    | some (b, after) =>
      let (bs, c) ← quotedBreaks fuel after
      return (b :: bs, c)

def escape (c : Cursor) : Except Fault Piece :=
  match c.rest with
  | [] => throw .cut
  | e :: digits =>
    match escapes.lookup e with
    | some x => return ([x], c.next)
    | none =>
      match codeLength? e with
      | some n => do
        let code := digits.take n
        match hexNumber? code with
        | some number =>
          if code.length < n then throw .cut
          return ((← codeElement number).held, c.skip (n + 1))
        | none => throw .illFormed
      | none =>
        match c.lineBreak? with
        | some (_, after) => quotedBreaks (after.left + 1) after
        | none => throw .illFormed

def endsQuotedRun (x : Char) : Bool :=
  x = '\'' || x = '"' || x = '\\' || isWhite x

def quotedFrom (double : Bool) : Nat → Cursor → Except Fault Piece
  | 0, _ => throw .illFormed
  | fuel + 1, c => do
    let more := fun (part : List Char) (c : Cursor) => do
      let (text, c) ← quotedFrom double fuel c
      return (part ++ text, c)
    match c.rest with
    | [] => throw .cut
    | x :: rest =>
      if !endsQuotedRun x then
        let run := c.rest.takeWhile fun x => !endsQuotedRun x
        more (Text.ofCharacters run) (c.skip run.length)
      else if x = '\'' then
        if double then more [x] c.next
        else if rest.head? = some '\'' then more [x] (c.skip 2)
        else return ([], c.next)
      else if x = '"' then
        if double then return ([], c.next) else more [x] c.next
      else if x = '\\' then
        if double then
          let (part, c) ← escape c.next
          more part c
        else more [x] c.next
      else
        let blanks := c.rest.takeWhile fun x => x = ' ' || x = '\t'
        let c := c.skip blanks.length
        match c.lineBreak? with
        | some (b, after) =>
          let (bs, c) ← quotedBreaks (after.left + 1) after
          more (fold b bs) c
        | none => if c.rest.isEmpty then throw .cut else more blanks c

def quoted (double : Bool) (c : Cursor) : Except Fault Piece :=
  quotedFrom double (2 * c.left + 2) c.next

/-! ### Blocks -/

inductive Chomping where
  | strip
  | clip
  | keep
  deriving DecidableEq

def chompingOf? : Char → Option Chomping
  | '+' => some .keep
  | '-' => some .strip
  | _ => none

def incrementOf? (x : Char) : Option Nat :=
  if x.isDigit then some (x.toNat - '0'.toNat) else none

def blockHeader (c : Cursor) : Except Fault (Chomping × Option Nat × Cursor) := do
  let takeChomping := fun (c : Cursor) =>
    match c.peek?.bind chompingOf? with
    | some k => (k, c.next)
    | none => (Chomping.clip, c)
  let takeIncrement := fun (c : Cursor) =>
    match c.peek?.bind incrementOf? with
    | some n => (some n, c.next)
    | none => (none, c)
  let (chomping, increment, c) :=
    if c.sees fun x => (chompingOf? x).isSome then
      let (k, c) := takeChomping c
      let (n, c) := takeIncrement c
      (k, n, c)
    else
      let (n, c) := takeIncrement c
      if n.isSome then
        let (k, c) := takeChomping c
        (k, n, c)
      else (Chomping.clip, n, c)
  if increment = some 0 then throw .illFormed
  if endOr isSpaceOrBreak c.rest then return (chomping, increment, c) else throw .illFormed

/-- Behind the blank lines at the start of a block, with their line ends and their greatest width. -/
def blockIndentation : Nat → Nat → Cursor → List Char × Nat × Cursor
  | 0, widest, c => ([], widest, c)
  | fuel + 1, widest, c =>
    match c.lineBreak? with
    | some (b, after) =>
      let (bs, widest, c) := blockIndentation fuel widest after
      (b :: bs, widest, c)
    | none =>
      if c.sees (· = ' ') then
        let c := c.next
        blockIndentation fuel (max widest c.column) c
      else ([], widest, c)

def skipIndent (indent : Nat) (c : Cursor) : Cursor :=
  c.skip ((c.rest.takeWhile (· = ' ')).length.min (indent - c.column))

def blockBreaks (indent : Nat) : Nat → Cursor → Piece
  | 0, c => ([], c)
  | fuel + 1, c =>
    let c := skipIndent indent c
    match c.lineBreak? with
    | some (b, after) =>
      let (bs, c) := blockBreaks indent fuel after
      (b :: bs, c)
    | none => ([], c)

def blockLines (folded : Bool) (indent : Nat) :
    Nat → List Char → Cursor → List Char × List Char × Piece
  | 0, breaks, c => ([], [], (breaks, c))
  | fuel + 1, breaks, c =>
    if c.column ≠ indent || c.rest.isEmpty then ([], [], (breaks, c))
    else
      let isText := fun (c : Cursor) => !c.sees fun x => x = ' ' || x = '\t'
      let startsText := isText c
      let run := c.rest.takeWhile fun x => !isBreak x
      let c := c.skip run.length
      let ending := (c.lineBreak?.map fun (b, _) => [b]).getD []
      let (next, c) := blockBreaks indent (c.left + 1) c.skipBreak
      if c.column = indent && !c.rest.isEmpty then
        let joint :=
          if folded && ending = ['\n'] && startsText && isText c then
            if next.isEmpty then [' '] else []
          else ending
        let (text, last, tail) := blockLines folded indent fuel next c
        (breaks ++ run ++ joint ++ text, last, tail)
      else (breaks ++ run, ending, (next, c))

/-- The text of a block scalar from its indicator on, in a collection at column `parent`. -/
def block (folded : Bool) (parent : Int) (c : Cursor) : Except Fault Piece := do
  let (chomping, increment, c) ← blockHeader c.next
  let c ← c.skipLineRest
  let least := (max 1 (parent + 1)).toNat
  let (breaks, indent, c) :=
    match increment with
    | none =>
      let (breaks, widest, c) := blockIndentation (c.left + 1) 0 c
      (breaks, max least widest, c)
    | some n =>
      let (breaks, c) := blockBreaks (least + n - 1) (c.left + 1) c
      (breaks, least + n - 1, c)
  let (text, last, (tail, c)) := blockLines folded indent (c.left + 1) breaks c
  let ending := match chomping with
    | .strip => []
    | .clip => last
    | .keep => last ++ tail
  return (Text.ofCharacters (text ++ ending), c)

end Provision.Yaml.Scalar
