import Provision.Text.Numeral

namespace Provision

structure Version where
  major : Nat := 0
  minor : Nat := 0
  micro : Nat := 0
  qualifier : String := ""
  deriving DecidableEq, Repr, Inhabited

namespace Version

instance : Ord Version where
  compare a b :=
    (compare a.major b.major).then <| (compare a.minor b.minor).then <|
      (compare a.micro b.micro).then <| compare a.qualifier b.qualifier

instance : LT Version := ltOfOrd

instance : LE Version := leOfOrd

instance (a b : Version) : Decidable (a < b) :=
  inferInstanceAs (Decidable (compare a b = .lt))

instance (a b : Version) : Decidable (a ≤ b) :=
  inferInstanceAs (Decidable ((compare a b).isLE = true))

def text (v : Version) : String :=
  let numbers := toString v.major ++ "." ++ toString v.minor ++ "." ++ toString v.micro
  if v.qualifier.isEmpty then numbers else numbers ++ "." ++ v.qualifier

def isWritable (v : Version) : Bool :=
  [v.major, v.minor, v.micro].all fun n => (Text.intText? n).isSome

def isQualifierChar (c : Char) : Bool :=
  c.isAlphanum || c = '_' || c = '-'

def sort (vs : List Version) : List Version :=
  vs.mergeSort fun a b => (compare a b).isLE

end Version

end Provision
