import Provision.Text.Numeral

namespace Provision

open Provision.Text

structure Date where
  year : Nat
  month : Nat
  day : Nat
  deriving DecidableEq, Repr

/-- A date with a time of day; `offset` is the distance from universal time in minutes. -/
structure Timestamp where
  date : Date
  hour : Nat
  minute : Nat
  second : Nat
  micro : Nat
  offset : Option Int
  deriving DecidableEq, Repr

namespace Date

def isLeap (year : Nat) : Bool :=
  year % 4 = 0 && (year % 100 ≠ 0 || year % 400 = 0)

def daysInMonth (year month : Nat) : Nat :=
  if month = 2 then (if isLeap year then 29 else 28)
  else if month = 4 ∨ month = 6 ∨ month = 9 ∨ month = 11 then 30
  else 31

def Valid (d : Date) : Prop :=
  1 ≤ d.year ∧ d.year ≤ 9999 ∧ 1 ≤ d.month ∧ d.month ≤ 12 ∧
    1 ≤ d.day ∧ d.day ≤ daysInMonth d.year d.month

instance (d : Date) : Decidable d.Valid := by
  unfold Valid
  infer_instance

def ofParts? (year month day : Nat) : Option Date :=
  if Valid ⟨year, month, day⟩ then some ⟨year, month, day⟩ else none

def dayNumber (d : Date) : Nat :=
  let y := d.year - 1
  let months := (List.range 13).filter fun m => 1 ≤ m && m < d.month
  365 * y + y / 4 - y / 100 + y / 400 +
    (months.map (daysInMonth d.year)).foldr (· + ·) 0 + d.day - 1

def iso (d : Date) : String :=
  zeroPadded 4 d.year ++ "-" ++ twoDigits d.month ++ "-" ++ twoDigits d.day

end Date

namespace Timestamp

def Valid (t : Timestamp) : Prop :=
  t.date.Valid ∧ t.hour < 24 ∧ t.minute < 60 ∧ t.second < 60 ∧ t.micro < 1000000 ∧
    ∀ m ∈ t.offset, m.natAbs < 24 * 60

instance (t : Timestamp) : Decidable t.Valid := by
  unfold Valid
  infer_instance

def ofParts? (date : Date) (hour minute second micro : Nat) (offset : Option Int) :
    Option Timestamp :=
  if Valid ⟨date, hour, minute, second, micro, offset⟩ then
    some ⟨date, hour, minute, second, micro, offset⟩
  else none

/-- Microseconds of universal time since the year 1, for a clock `offset` minutes ahead of it. -/
def instant (t : Timestamp) (offset : Int) : Int :=
  ((((t.date.dayNumber * 24 + t.hour) * 60 + t.minute : Nat) - offset) * 60 + t.second) * 1000000
    + t.micro

/-- Whether two timestamps denote the same time; a local one never equals a universal one. -/
def same (a b : Timestamp) : Bool :=
  match a.offset, b.offset with
  | none, none => a = b
  | some m, some n => a.instant m = b.instant n
  | _, _ => false

def offsetText (minutes : Int) : String :=
  (if minutes < 0 then "-" else "+") ++ twoDigits (minutes.natAbs / 60) ++ ":" ++
    twoDigits (minutes.natAbs % 60)

def iso (separator : String) (t : Timestamp) : String :=
  t.date.iso ++ separator ++ twoDigits t.hour ++ ":" ++ twoDigits t.minute ++ ":" ++
    twoDigits t.second ++ (if t.micro = 0 then "" else "." ++ zeroPadded 6 t.micro) ++
    (t.offset.map offsetText).getD ""

end Timestamp

end Provision
