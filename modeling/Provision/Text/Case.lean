import Provision.Text.Case.Table

namespace Provision.Text

namespace Case

def image? (rows : List (Nat × Nat × Nat × Nat)) (n : Nat) : Option Nat :=
  (rows.find? fun (first, last, step, _) => first ≤ n && n ≤ last && (n - first) % step == 0).map
    fun (first, _, _, image) => image + (n - first)

def isIgnorable (c : Char) : Bool :=
  ignorableRanges.any fun (first, last) => first ≤ c.toNat && c.toNat ≤ last

def isCased (c : Char) : Bool :=
  casedRanges.any fun (first, last) => first ≤ c.toNat && c.toNat ≤ last

def nextIsCased (cs : List Char) : Bool :=
  match cs.dropWhile isIgnorable with
  | [] => false
  | c :: _ => isCased c

def lowerChar (before : List Char) (c : Char) (after : List Char) : List Char :=
  if c = 'Σ' then
    if nextIsCased before && !nextIsCased after then ['ς'] else ['σ']
  else if c = 'İ' then ['i', '\u0307']
  else [((image? lowerRows c.toNat).map Char.ofNat).getD c]

def lowerFrom (before : List Char) : List Char → List Char
  | [] => []
  | c :: after => lowerChar before c after ++ lowerFrom (c :: before) after

def upperChar (c : Char) : List Char :=
  match upperSpecials.lookup c.toNat with
  | some image => image.map Char.ofNat
  | none => [((image? upperRows c.toNat).map Char.ofNat).getD c]

end Case

def lower (cs : List Char) : List Char :=
  if cs.all fun c => c.toNat < 0x80 then cs.map Char.toLower else Case.lowerFrom [] cs

def upper (cs : List Char) : List Char :=
  if cs.all fun c => c.toNat < 0x80 then cs.map Char.toUpper else cs.flatMap Case.upperChar

def lowerText (s : String) : String :=
  String.ofList (lower s.toList)

def upperText (s : String) : String :=
  String.ofList (upper s.toList)

end Provision.Text
