namespace Provision.Text

/-- Blank characters: the white space of Unicode and the information separators U+001C to U+001F. -/
def isBlank (c : Char) : Bool :=
  let n := c.toNat
  (0x09 ≤ n && n ≤ 0x0D) || (0x1C ≤ n && n ≤ 0x20) || n == 0x85 || n == 0xA0 || n == 0x1680 ||
    (0x2000 ≤ n && n ≤ 0x200A) || n == 0x2028 || n == 0x2029 || n == 0x202F || n == 0x205F ||
    n == 0x3000

def dropEndWhile (p : Char → Bool) (cs : List Char) : List Char :=
  (cs.reverse.dropWhile p).reverse

def trimWhile (p : Char → Bool) (cs : List Char) : List Char :=
  dropEndWhile p (cs.dropWhile p)

def trim (cs : List Char) : List Char :=
  trimWhile isBlank cs

def trimText (s : String) : String :=
  String.ofList (trim s.toList)

/-- A text without the line feed it may end in. -/
def dropLineEnd (cs : List Char) : List Char :=
  if cs.getLast? = some '\n' then cs.dropLast else cs

def isBlankText (s : String) : Bool :=
  s.toList.all isBlank

def splitOnChar (sep : Char) : List Char → List (List Char)
  | [] => [[]]
  | c :: cs =>
    if c = sep then [] :: splitOnChar sep cs
    else
      match splitOnChar sep cs with
      | [] => [[c]]
      | piece :: pieces => (c :: piece) :: pieces

def cutAt (p : Char → Bool) (cs : List Char) : List Char × Option (List Char) :=
  match cs.dropWhile fun c => !p c with
  | [] => (cs, none)
  | _ :: rest => (cs.takeWhile fun c => !p c, some rest)

def cutAtLast (p : Char → Bool) (cs : List Char) : Option (List Char × List Char) :=
  match cutAt p cs.reverse with
  | (_, none) => none
  | (after, some before) => some (before.reverse, after.reverse)

def startsWith (start cs : List Char) : Bool :=
  start.isPrefixOf cs

def endsWith (tail cs : List Char) : Bool :=
  tail.isSuffixOf cs

def join (sep : String) : List String → String
  | [] => ""
  | [s] => s
  | s :: rest => s ++ sep ++ join sep rest

end Provision.Text
