/-
# Moments and their dates

A moment counts the seconds since the start of 1970 in Universal Time, with
nanoseconds on top; a thousand million or more nanoseconds lie in the leap second
behind the counted one, which is second 60 of its minute.

The date comes from the Gregorian calendar, extended in both directions.  Years
are counted from a first of March, so that the leap day ends its year and a month
begins `(153 * m + 2) / 5` days after the year does.
-/

import Rollup.Decimal.Layout

namespace Rollup

structure Moment where
  seconds : Int
  nanoseconds : Nat
  deriving DecidableEq, Repr

/-- A day of the calendar. -/
structure Date where
  year : Int
  month : Nat
  day : Nat
  deriving DecidableEq, Repr

namespace Date

/-- Days in a cycle of four hundred years. -/
def cycleDays : Int := 146097

/-- The date so many days after 1970-01-01. -/
def ofDays (days : Int) : Date :=
  let shifted := days + 719468
  let cycle := shifted / cycleDays
  let inCycle := (shifted % cycleDays).toNat
  let yearInCycle := (inCycle - inCycle / 1460 + inCycle / 36524 - inCycle / 146096) / 365
  let inYear := inCycle - (365 * yearInCycle + yearInCycle / 4 - yearInCycle / 100)
  let m := (5 * inYear + 2) / 153
  { year := yearInCycle + cycle * 400 + (if m < 10 then 0 else 1)
    month := if m < 10 then m + 3 else m - 9
    day := inYear - (153 * m + 2) / 5 + 1 }

example : ofDays 0 = ⟨1970, 1, 1⟩ := by decide
example : ofDays 11016 = ⟨2000, 2, 29⟩ := by decide
example : ofDays (-719529) = ⟨-1, 12, 31⟩ := by decide

end Date

namespace Moment

/-- A number with at least so many digits. -/
def padded (width n : Nat) : String :=
  let digits := Decimal.writeNat n
  String.ofList (Decimal.zeros (width - digits.length) ++ digits)

/-- Four digits, and a sign outside the years 0 to 9999. -/
def yearText (year : Int) : String :=
  (if year < 0 then "-" else if 9999 < year then "+" else "") ++ padded 4 year.natAbs

def date (t : Moment) : Date := Date.ofDays (t.seconds / 86400)

def dateText (t : Moment) : String :=
  let d := t.date
  yearText d.year ++ "-" ++ padded 2 d.month ++ "-" ++ padded 2 d.day

def timeText (t : Moment) : String :=
  let s := (t.seconds % 86400).toNat
  padded 2 (s / 3600) ++ ":" ++ padded 2 (s / 60 % 60) ++ ":" ++
    padded 2 (if t.nanoseconds < 10 ^ 9 then s % 60 else s % 60 + 1)

/-- The fraction of a second in three, six or nine digits, as many as it needs. -/
def fractionText (t : Moment) : String :=
  let n := t.nanoseconds % 10 ^ 9
  if n = 0 then ""
  else if n % 10 ^ 6 = 0 then "." ++ padded 3 (n / 10 ^ 6)
  else if n % 10 ^ 3 = 0 then "." ++ padded 6 (n / 10 ^ 3)
  else "." ++ padded 9 n

/-- Date and time to the second. -/
def text (t : Moment) : String := t.dateText ++ " " ++ t.timeText ++ " UTC"

/-- Date and time as an Internet timestamp. -/
def timestamp (t : Moment) : String := t.dateText ++ "T" ++ t.timeText ++ t.fractionText ++ "Z"

end Moment
end Rollup
