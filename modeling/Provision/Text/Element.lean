namespace Provision.Text

inductive Element where
  | char (c : Char)
  /-- A code unit from `0xD800` to `0xDFFF`. -/
  | half (unit : Nat)
  deriving DecidableEq, Repr

/-- What a half is held behind: the last character of all. Where it is meant itself it is held twice, so
that every text has one list of elements. -/
def mark : Char := Char.ofNat 0x10FFFF

def firstHalf : Nat := 0xD800

/-- The character that stands for the first half, the others following it. -/
def firstStandIn : Nat := 0xF0000

namespace Element

def held : Element → List Char
  | .char c => if c = mark then [mark, mark] else [c]
  | .half unit => [mark, Char.ofNat (firstStandIn + (unit - firstHalf))]

def code : Element → Nat
  | .char c => c.toNat
  | .half unit => unit

end Element

def elements : List Char → List Element
  | [] => []
  | [c] => [.char c]
  | c :: d :: rest =>
    if c = mark then
      (if d = mark then .char mark else .half (d.toNat - firstStandIn + firstHalf)) :: elements rest
    else .char c :: elements (d :: rest)

def codes (s : String) : List Nat :=
  (elements s.toList).map Element.code

def isUpTo : List Nat → List Nat → Bool
  | [], _ => true
  | _ :: _, [] => false
  | m :: ms, n :: ns => m < n || m = n && isUpTo ms ns

def ofCharacters (cs : List Char) : List Char :=
  if cs.contains mark then cs.flatMap fun c => Element.held (.char c) else cs

def isFirstHalf (unit : Nat) : Bool := 0xD800 ≤ unit && unit < 0xDC00

def isSecondHalf (unit : Nat) : Bool := 0xDC00 ≤ unit && unit < 0xE000

def joinHalves (first second : Nat) : Char :=
  Char.ofNat (0x10000 + (first - 0xD800) * 0x400 + (second - 0xDC00))

/-- The characters of elements: two halves side by side make up one, a half alone is replaced. -/
def joined : List Element → List Char
  | [] => []
  | .char c :: rest => c :: joined rest
  | .half first :: .half second :: rest =>
    if isFirstHalf first && isSecondHalf second then joinHalves first second :: joined rest
    else '\ufffd' :: joined (.half second :: rest)
  | .half _ :: rest => '\ufffd' :: joined rest

def characters (s : String) : List Char :=
  let cs := s.toList
  if cs.contains mark then joined (elements cs) else cs

theorem elements_held_char (c : Char) (rest : List Char) :
    elements (Element.held (.char c) ++ rest) = .char c :: elements rest := by
  by_cases h : c = mark
  · simp [Element.held, h, elements]
  · cases rest <;> simp [Element.held, h, elements]

theorem elements_flatMap_held (cs : List Char) :
    elements (cs.flatMap fun c => Element.held (.char c)) = cs.map .char := by
  induction cs with
  | nil => rfl
  | cons c cs ih => simp [elements_held_char, ih]

theorem flatMap_held_of_not_mem {cs : List Char} (h : mark ∉ cs) :
    (cs.flatMap fun c => Element.held (.char c)) = cs := by
  induction cs with
  | nil => rfl
  | cons c cs ih =>
    rw [List.mem_cons, not_or] at h
    have hc : Element.held (.char c) = [c] := if_neg (Ne.symm h.1)
    rw [List.flatMap_cons, hc, ih h.2]
    rfl

theorem elements_ofCharacters (cs : List Char) : elements (ofCharacters cs) = cs.map .char := by
  rw [← elements_flatMap_held]
  unfold ofCharacters
  split
  · rfl
  · rw [flatMap_held_of_not_mem (by simp_all)]

/-! ### Encoding -/

/-- Halves that cannot be encoded: how many elements stand before them, and the run of them. -/
structure Unencodable where
  position : Nat
  halves : List Nat
  deriving DecidableEq, Repr

def leadingHalves : List Element → List Nat
  | .half unit :: rest => unit :: leadingHalves rest
  | _ => []

def unencodable? (position : Nat) : List Element → Option Unencodable
  | [] => none
  | .char _ :: rest => unencodable? (position + 1) rest
  | .half unit :: rest => some ⟨position, unit :: leadingHalves rest⟩

def encode (s : String) : Except Unencodable ByteArray :=
  let cs := s.toList
  if cs.contains mark then
    let es := elements cs
    match unencodable? 0 es with
    | some u => throw u
    | none => return (String.ofList (joined es)).toUTF8
  else return s.toUTF8

/-! ### Names of files -/

/-- The bytes of an element in a name; a half of the range set aside for it stands for one byte. -/
def nameBytes? : Element → Option (List UInt8)
  | .char c => some c.toString.toUTF8.toList
  | .half unit =>
    if 0xDC80 ≤ unit ∧ unit ≤ 0xDCFF then some [UInt8.ofNat (unit - 0xDC00)] else none

def spelling? (name : String) : Option String :=
  if name.toList.contains mark then
    ((elements name.toList).mapM nameBytes?).map fun bytes =>
      match String.fromUTF8? ⟨bytes.flatten.toArray⟩ with
      | some s => String.ofList (ofCharacters s.toList)
      | none => name
  else some name

def nameSize (name : String) : Nat :=
  if name.toList.contains mark then
    ((elements name.toList).map fun e => ((nameBytes? e).getD []).length).foldr (· + ·) 0
  else name.utf8ByteSize

end Provision.Text
