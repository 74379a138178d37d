import Provision.Text.Element
import Provision.Text.Printable

namespace Provision.Text

def hexDigits : Nat → Nat → List Char
  | 0, _ => []
  | width + 1, n => hexDigits width (n / 16) ++ [Nat.digitChar (n % 16)]

namespace Quoted

def quoteFor (cs : List Char) : Char :=
  if cs.contains '\'' && !cs.contains '"' then '"' else '\''

def escape (quote c : Char) : List Char :=
  if c = quote ∨ c = '\\' then ['\\', c]
  else if c = '\n' then ['\\', 'n']
  else if c = '\r' then ['\\', 'r']
  else if c = '\t' then ['\\', 't']
  else if isPrintable c then [c]
  else if c.toNat < 0x100 then '\\' :: 'x' :: hexDigits 2 c.toNat
  else if c.toNat < 0x10000 then '\\' :: 'u' :: hexDigits 4 c.toNat
  else '\\' :: 'U' :: hexDigits 8 c.toNat

def escapeElement (quote : Char) : Element → List Char
  | .char c => escape quote c
  | .half unit => '\\' :: 'u' :: hexDigits 4 unit

def encode (cs : List Char) : List Char :=
  let quote := quoteFor cs
  quote :: (elements cs).flatMap (escapeElement quote) ++ [quote]

end Quoted

def quoted (s : String) : String :=
  String.ofList (Quoted.encode s.toList)

/-- Bytes are written as the text of their Latin-1 characters, with nothing beyond ASCII printable. -/
def quotedBytes (bytes : List UInt8) : String :=
  let cs := bytes.map fun b => Char.ofNat b.toNat
  let quote := Quoted.quoteFor cs
  let escape := fun c : Char =>
    if c.toNat < 0x7F then Quoted.escape quote c else '\\' :: 'x' :: hexDigits 2 c.toNat
  String.ofList ('b' :: quote :: cs.flatMap escape ++ [quote])

end Provision.Text
