import StructuredBasic.Decimal.Read

/-!
# Dates and times of day

Which texts name a day of the calendar, a time of day, or both. The months have their own lengths,
and a minute may have a leap second.
-/

set_option autoImplicit false

namespace StructuredBasic.Config

/-- The number of two digits, if it lies within the bounds. -/
def twoDigits? (low high : Nat) (a b : Char) : Option Nat :=
  if a.isDigit && b.isDigit then
    let n := Decimal.digitsValue [a, b]
    if low ≤ n ∧ n ≤ high then some n else none
  else none

def isLeapYear (year : Nat) : Bool := year % 4 == 0 && (year % 100 != 0 || year % 400 == 0)

/-- The number of days of a month. -/
def monthLength (year month : Nat) : Nat :=
  if month == 2 then (if isLeapYear year then 29 else 28)
  else if month == 4 || month == 6 || month == 9 || month == 11 then 30
  else 31

/-- Whether text has the form of a date, of whatever day. -/
def hasDateForm : List Char → Bool
  | [y, e, a, r, '-', m, o, '-', d, t] => [y, e, a, r, m, o, d, t].all Char.isDigit
  | _ => false

/-- A day of the calendar. -/
def isDate : List Char → Bool
  | [y, e, a, r, '-', m, o, '-', d, t] =>
    [y, e, a, r].all Char.isDigit &&
      match twoDigits? 1 12 m o with
      | some month =>
        (twoDigits? 1 (monthLength (Decimal.digitsValue [y, e, a, r]) month) d t).isSome
      | none => false
  | _ => false

/-- An hour and a minute. -/
def isClock : List Char → Bool
  | [h, o, ':', m, i] => (twoDigits? 0 23 h o).isSome && (twoDigits? 0 59 m i).isSome
  | _ => false

/-- A time of day with an optional fraction of a second. -/
def isTime (cs : List Char) : Bool :=
  isClock (cs.take 5) &&
    match cs.drop 5 with
    | [':', s, e] => (twoDigits? 0 60 s e).isSome
    | ':' :: s :: e :: '.' :: rest =>
      (twoDigits? 0 60 s e).isSome && !rest.isEmpty && rest.all Char.isDigit
    | _ => false

/-- A distance from universal time. -/
def isZone : List Char → Bool
  | c :: rest => (c == '+' || c == '-') && isClock rest
  | [] => false

/-- A time of day with an optional distance from universal time. -/
def isZonedTime (cs : List Char) : Bool :=
  isTime cs
    || (cs.getLast?.any fun c => c == 'Z' || c == 'z') && isTime cs.dropLast
    || isZone (cs.drop (cs.length - 6)) && isTime (cs.take (cs.length - 6))

/-- A date, a time of day, or both with a mark between them. -/
def isDateTime (cs : List Char) : Bool :=
  isTime cs ||
    isDate (cs.take 10) &&
      match cs.drop 10 with
      | [] => true
      | c :: rest => (c == 'T' || c == 't' || c == ' ') && isZonedTime rest

end StructuredBasic.Config
