import Provision.Yaml.Scalar

namespace Provision.Yaml

inductive Tag where
  | null
  | bool
  | int
  | float
  | text
  | binary
  | timestamp
  | merge
  | value
  | sequence
  | mapping
  | set
  | orderedMap
  | pairs
  | unknown
  deriving DecidableEq, Repr

namespace Tag

def standardStart : String := "tag:yaml.org,2002:"

def names : List (String × Tag) :=
  [("null", .null), ("bool", .bool), ("int", .int), ("float", .float), ("str", .text),
   ("binary", .binary), ("timestamp", .timestamp), ("merge", .merge), ("value", .value),
   ("seq", .sequence), ("map", .mapping), ("set", .set), ("omap", .orderedMap), ("pairs", .pairs)]

def isScalar : Tag → Bool
  | .null | .bool | .int | .float | .text | .binary | .timestamp => true
  | _ => false

def ofText (s : String) : Tag :=
  (names.find? fun (name, _) => standardStart ++ name = s).elim .unknown Prod.snd

end Tag

/-! ### Forms of plain scalars -/

namespace Form

def isBool (s : String) : Bool :=
  ["yes", "Yes", "YES", "no", "No", "NO", "true", "True", "TRUE", "false", "False", "FALSE",
   "on", "On", "ON", "off", "Off", "OFF"].contains s

def isNull (s : String) : Bool :=
  ["", "~", "null", "Null", "NULL"].contains s

def dropSign : List Char → List Char
  | '-' :: rest => rest
  | '+' :: rest => rest
  | cs => cs

def isDigitOrLine (c : Char) : Bool := c.isDigit || c = '_'

def isSixties : List Char → Bool
  | ':' :: a :: rest =>
    a.isDigit && (rest.isEmpty || isSixties rest ||
      match rest with
      | b :: rest => a < '6' && b.isDigit && (rest.isEmpty || isSixties rest)
      | [] => false)
  | _ => false

def isInt (cs : List Char) : Bool :=
  match dropSign cs with
  | '0' :: rest =>
    rest.isEmpty || rest.all (fun c => ('0' ≤ c ∧ c ≤ '7') || c = '_') ||
      match rest with
      | 'b' :: digits => !digits.isEmpty && digits.all fun c => c = '0' || c = '1' || c = '_'
      | 'x' :: digits =>
        !digits.isEmpty && digits.all fun c => Text.isHexDigit c || c = '_'
      | _ => false
  | c :: rest =>
    c.isDigit && (rest.all isDigitOrLine || isSixties (rest.dropWhile isDigitOrLine))
  | [] => false

def isExponent : List Char → Bool
  | [] => true
  | e :: s :: digits =>
    (e = 'e' || e = 'E') && (s = '+' || s = '-') && !digits.isEmpty && digits.all Char.isDigit
  | _ => false

def isSixtiesPoint (cs : List Char) : Bool :=
  let whole := cs.takeWhile (· ≠ '.')
  match cs.dropWhile (· ≠ '.') with
  | '.' :: fraction => isSixties whole && fraction.all isDigitOrLine
  | _ => false

def isFloat (cs : List Char) : Bool :=
  let body := dropSign cs
  let named := String.ofList body
  let whole := body.takeWhile isDigitOrLine
  let startsWithDigit := body.head?.any Char.isDigit
  [".inf", ".Inf", ".INF"].contains named ||
    [".nan", ".NaN", ".NAN"].contains (String.ofList cs) ||
    (startsWithDigit && (match body.dropWhile isDigitOrLine with
      | '.' :: rest => isExponent (rest.dropWhile isDigitOrLine)
      | rest => whole.length ≠ 0 && isSixtiesPoint rest)) ||
    (match cs with
      | '.' :: d :: rest => d.isDigit && isExponent (rest.dropWhile isDigitOrLine)
      | _ => false)

end Form

structure TimestampParts where
  year : List Char
  month : List Char
  day : List Char
  /-- Hour, minute, second and fraction of a second. -/
  time : Option (List Char × List Char × List Char × List Char)
  /-- The zone: universal time, or a sign with hours and minutes. -/
  zone : Option (Option (Char × List Char × List Char))

namespace TimestampParts

def oneOrTwo? : List Char → Option (List Char × List Char)
  | a :: b :: rest =>
    if a.isDigit then (if b.isDigit then some ([a, b], rest) else some ([a], b :: rest)) else none
  | [a] => if a.isDigit then some ([a], []) else none
  | [] => none

def two? : List Char → Option (List Char × List Char)
  | a :: b :: rest => if a.isDigit && b.isDigit then some ([a, b], rest) else none
  | _ => none

def expect? (c : Char) : List Char → Option (List Char)
  | x :: rest => if x = c then some rest else none
  | [] => none

def isSpaceOrTab (c : Char) : Bool := c = ' ' || c = '\t'

def zone? (cs : List Char) : Option (Option (Option (Char × List Char × List Char))) :=
  match cs.dropWhile isSpaceOrTab with
  | [] => if cs.isEmpty then some none else none
  | ['Z'] => some (some none)
  | s :: rest =>
    if s = '+' ∨ s = '-' then do
      let (hours, rest) ← oneOrTwo? rest
      match rest with
      | [] => some (some (some (s, hours, [])))
      | ':' :: rest => do
        let (minutes, rest) ← two? rest
        if rest.isEmpty then some (some (some (s, hours, minutes))) else none
      | _ => none
    else none

def separator? : List Char → Option (List Char)
  | c :: rest =>
    if c = 'T' ∨ c = 't' then some rest
    else if isSpaceOrTab c then some (rest.dropWhile isSpaceOrTab)
    else none
  | [] => none

def ofChars? (text : List Char) : Option TimestampParts := do
  let cs := Text.dropLineEnd text
  let year := cs.take 4
  if !(year.length = 4 && year.all Char.isDigit) then none
  let (month, rest) ← oneOrTwo? (← expect? '-' (cs.drop 4))
  let (day, rest) ← oneOrTwo? (← expect? '-' rest)
  if rest.isEmpty then return ⟨year, month, day, none, none⟩
  let (hour, rest) ← oneOrTwo? (← separator? rest)
  let (minute, rest) ← two? (← expect? ':' rest)
  let (second, rest) ← two? (← expect? ':' rest)
  let (fraction, rest) := match rest with
    | '.' :: rest => (rest.takeWhile Char.isDigit, rest.dropWhile Char.isDigit)
    | rest => ([], rest)
  let zone ← zone? rest
  return ⟨year, month, day, some (hour, minute, second, fraction), zone⟩

def isPlain (p : TimestampParts) : Bool :=
  p.time.isSome || (p.month.length = 2 && p.day.length = 2)

end TimestampParts

/-- The type of a plain scalar, or of another one that is read as if it were plain: there a line feed
may stand behind the form. -/
def Tag.ofPlain (floats : Bool) (text : String) : Tag :=
  let cs := if text = "\n" then text.toList else Text.dropLineEnd text.toList
  let s := String.ofList cs
  if Form.isBool s then .bool
  else if floats && Form.isFloat cs then .float
  else if Form.isInt cs then .int
  else if s = "<<" then .merge
  else if Form.isNull s then .null
  else if (TimestampParts.ofChars? cs).any TimestampParts.isPlain then .timestamp
  else if s = "=" then .value
  else .text

end Provision.Yaml
