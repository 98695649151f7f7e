/-
  This file defines dates of the proleptic Gregorian calendar
  and their numbering by days from 1970-01-01.

  Years are counted from March, so that the leap day comes
  last, and in cycles of 400 years, which have 146097 days.

  Key definitions include:
    * `Date`
    * `Date.Valid`
    * `Date.toDay`
    * `Date.ofDay`
-/

namespace Factbase

------------------------------------------------------------
-- Dates
------------------------------------------------------------

/- A year, a month from 1 to 12 and a day of the month. -/
structure Date where
  year : Int
  month : Nat
  day : Nat
deriving DecidableEq, Repr

namespace Date

/- A year has a leap day. -/
def isLeap (year : Int) : Bool :=
  year % 4 = 0 && (year % 100 ≠ 0 || year % 400 = 0)

/- The number of days in a month. -/
def daysIn
    (year : Int)
    (month : Nat) : Nat :=
  match month with
  | 2 => if isLeap year then 29 else 28
  | 4 | 6 | 9 | 11 => 30
  | _ => 31

/- The month and the day exist. -/
def Valid (d : Date) : Prop :=
  1 ≤ d.month ∧ d.month ≤ 12 ∧
    1 ≤ d.day ∧ d.day ≤ daysIn d.year d.month

instance (d : Date) : Decidable d.Valid := by
  unfold Valid
  infer_instance

------------------------------------------------------------
-- Day numbers
------------------------------------------------------------

/- The day number of a date. -/
def toDay (d : Date) : Int :=
  let year := if d.month ≤ 2 then d.year - 1 else d.year
  let cycle := year / 400
  let inCycle := year % 400
  let month : Int := (d.month + 9) % 12
  let inYear := (153 * month + 2) / 5 + d.day - 1
  cycle * 146097 +
    (inCycle * 365 + inCycle / 4 - inCycle / 100 + inYear) - 719468

/- The date of a day number. -/
def ofDay (n : Int) : Date :=
  let shifted := n + 719468
  let cycle := shifted / 146097
  let inCycle := (shifted % 146097).toNat
  let year :=
    (inCycle - inCycle / 1460 + inCycle / 36524
      - inCycle / 146096) / 365
  let inYear := inCycle - (365 * year + year / 4 - year / 100)
  let month := (5 * inYear + 2) / 153
  let civil := if month < 10 then month + 3 else month - 9
  { year := cycle * 400 + year + (if civil ≤ 2 then 1 else 0),
    month := civil,
    day := inYear - (153 * month + 2) / 5 + 1 }

end Date

end Factbase
