import Provision.Text.Numeral

namespace Provision.Url.Address

open Provision.Text

def isOctet (cs : List Char) : Bool :=
  !cs.isEmpty && cs.all Char.isDigit && cs.length ≤ 3 && (cs = ['0'] || cs.head? != some '0') &&
    Numeral.ofDigits 10 (cs.map fun c => c.toNat - '0'.toNat) ≤ 255

def isFourth (cs : List Char) : Bool :=
  let octets := splitOnChar '.' cs
  octets.length = 4 && octets.all isOctet

def isGroup (cs : List Char) : Bool :=
  !cs.isEmpty && cs.length ≤ 4 && cs.all isHexDigit

/-- Whether the groups are eight, or fewer around one gap; an end of the address is empty only
where the gap is. -/
def areGroups (groups : List (List Char)) : Bool :=
  if ((groups.drop 1).dropLast).any List.isEmpty then
    let before := groups.takeWhile fun g => !g.isEmpty
    let after := groups.reverse.takeWhile fun g => !g.isEmpty
    let gap := 1 + (if before.isEmpty then 1 else 0) + (if after.isEmpty then 1 else 0)
    groups.length = before.length + gap + after.length && before.length + after.length < 8 &&
      before.all isGroup && after.all isGroup
  else groups.length = 8 && groups.all isGroup

def groups? (cs : List Char) : Option (List (List Char)) :=
  let parts := splitOnChar ':' cs
  match parts.getLast? with
  | none => none
  | some last =>
    if parts.length < 3 then none
    else if last.contains '.' then
      if isFourth last then some (parts.dropLast ++ [['0'], ['0']]) else none
    else some parts

def isSixth (cs : List Char) : Bool :=
  let (address, zone) := cutAt (· = '%') cs
  zone.all (fun z => !z.isEmpty && !z.contains '%') && (groups? address).any areGroups

def isLater : List Char → Bool
  | 'v' :: rest =>
    let digits := rest.takeWhile isHexDigit
    match rest.drop digits.length with
    | '.' :: name => !digits.isEmpty && !name.isEmpty
    | _ => false
  | _ => false

def isHost (cs : List Char) : Bool :=
  if cs.head? = some 'v' then isLater cs else isSixth cs

end Provision.Url.Address
