import Provision.Text.Blocks
import Provision.Yaml.Cursor

namespace Provision.Yaml

/-- The characters that can be read, and the fault met behind them, if there is one. -/
structure Stream where
  characters : List Char
  ending : Option Fault := none

namespace Stream

def ofCharacters (cs : List Char) : Stream :=
  if cs.all isAllowed then ⟨cs, none⟩ else ⟨[], some .illFormed⟩

def firstPortions : Nat := 2

/-- The characters in front of a portion with a fault; the first ones are read together. -/
def upTo (portion : Nat) (cs : List Char) (f : Fault) : Stream :=
  ⟨if portion < firstPortions then [] else cs.take (portion * Text.portionSize), some f⟩

/-- The first portion that cannot be decoded, or the one before it with a character that no document
has; portions that are read together are all decoded before their characters are looked at. -/
def faultIn? (reading : Text.PortionReading) : Option (Nat × Fault) :=
  let undecodable := reading.failsAt.map fun portion => (portion, .failure .undecodable)
  let illFormed := (reading.characters.findIdx? fun c => !isAllowed c).map fun i =>
    (i / Text.portionSize, .illFormed)
  if reading.failsAt.any (· < firstPortions) then undecodable else illFormed.or undecodable

def ofFile (content : ByteArray) : Stream :=
  let reading := Text.readPortions content
  match faultIn? reading with
  | some (portion, f) => upTo portion reading.characters f
  | none => ⟨reading.characters, none⟩

end Stream

end Provision.Yaml
