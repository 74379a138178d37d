namespace Provision.Text

def unifyLineEnds : List Char → List Char
  | [] => []
  | '\r' :: '\n' :: rest => '\n' :: unifyLineEnds rest
  | '\r' :: rest => '\n' :: unifyLineEnds rest
  | c :: rest => c :: unifyLineEnds rest

def charactersOf? (content : ByteArray) : Option (List Char) :=
  (String.fromUTF8? content).map fun s => unifyLineEnds s.toList

/-! ### Portions -/

def blockSize : Nat := 8192

def portionSize : Nat := 4096

def isCutCharacter : List UInt8 → Bool
  | [a] => 0xC2 ≤ a && a ≤ 0xF4
  | [a, b] => 0xE0 ≤ a && a ≤ 0xF4 && isSecond a b
  | [a, b, c] => 0xF0 ≤ a && a ≤ 0xF4 && isSecond a b && 0x80 ≤ c && c ≤ 0xBF
  | _ => false
where
  isSecond (a b : UInt8) : Bool :=
    (if a = 0xE0 then 0xA0 else if a = 0xF0 then 0x90 else 0x80) ≤ b &&
      b ≤ (if a = 0xED then 0x9F else if a = 0xF4 then 0x8F else 0xBF)

/-- The characters of bytes and the bytes of a character cut at the end, of which there are less than
`n`; none where the bytes are no text. -/
def decodePrefix? (bytes : ByteArray) : Nat → Option (List Char × ByteArray)
  | 0 => none
  | n + 1 =>
    let cut := bytes.size - n
    let rest := bytes.extract cut bytes.size
    match decodePrefix? bytes n with
    | some found => some found
    | none =>
      if n ≤ bytes.size && (n = 0 || isCutCharacter rest.toList) then
        (String.fromUTF8? (bytes.extract 0 cut)).map fun s => (s.toList, rest)
      else none

structure BlockReader where
  content : ByteArray
  /-- The position of the next block. -/
  position : Nat := 0
  /-- The bytes of a character that is not complete. -/
  cut : ByteArray := .empty
  /-- Whether a carriage return waits for what follows it. -/
  returned : Bool := false
  /-- The decoded characters, the last one first, and their number. -/
  decoded : List Char := []
  count : Nat := 0
  /-- Bytes for each character of the block before. -/
  ratio : Float := 0

namespace BlockReader

def accept (cs : List Char) (isLast : Bool) (size : Nat) (r : BlockReader) : BlockReader :=
  let cs := if r.returned && (isLast || !cs.isEmpty) then '\r' :: cs else cs
  let waits := !isLast && cs.getLast? = some '\r'
  let cs := unifyLineEnds (if waits then cs.dropLast else cs)
  let n := cs.length
  { r with
    returned := waits || (r.returned && cs.isEmpty && !isLast)
    decoded := cs.reverseAux r.decoded
    count := r.count + n
    ratio := if n = 0 then 0 else size.toFloat / n.toFloat }

def readBlock? (size : Nat) (r : BlockReader) : Option BlockReader := do
  let block := r.content.extract r.position (r.position + size)
  let isLast := block.size = 0
  let (cs, cut) ← decodePrefix? (r.cut ++ block) 4
  guard (!isLast || cut.isEmpty)
  return accept cs isLast block.size { r with position := r.position + block.size, cut := cut }

/-- The size of the block that is read for a number of missing characters. -/
def nextSize (missing : Nat) (r : BlockReader) : Nat :=
  max blockSize ((max r.ratio 1) * missing.toFloat).toUInt64.toNat

def fill? (goal : Nat) : Nat → BlockReader → Option BlockReader
  | 0, r => some r
  | fuel + 1, r =>
    if goal ≤ r.count then some r
    else do
      let next ← r.readBlock? (r.nextSize (goal - r.count))
      if next.position = r.position && next.count = r.count then return next
      fill? goal fuel next

end BlockReader

structure PortionReading where
  characters : List Char
  failsAt : Option Nat := none

def readPortionsFrom (portion : Nat) : Nat → BlockReader → PortionReading
  | 0, r => ⟨r.decoded.reverse, none⟩
  | fuel + 1, r =>
    let goal := (portion + 1) * portionSize
    match r.fill? goal (r.content.size + 2) with
    | none => ⟨r.decoded.reverse.take (portion * portionSize), some portion⟩
    | some r =>
      if r.count < goal then ⟨r.decoded.reverse, none⟩ else readPortionsFrom (portion + 1) fuel r

/-- Reads a file to its end, or to the first portion that cannot be decoded. -/
def readPortions (content : ByteArray) : PortionReading :=
  readPortionsFrom 0 (content.size + 1) { content := content }

end Provision.Text
