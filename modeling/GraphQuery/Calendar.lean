/-!
# The Gregorian calendar

Dates of the proleptic Gregorian calendar and their distance in days from 1970-01-01.
Years are counted from March in periods of 400 years, which all have the same length,
so that the leap day is the last day of a year.
-/

namespace GraphQuery

/-- A year, a month from 1 and a day from 1. -/
structure Date where
  year : Int
  month : Nat
  day : Nat
  deriving DecidableEq, Repr

namespace Date

/-! ## Valid dates -/

def isLeap (year : Int) : Bool := year % 4 = 0 && (year % 100 ≠ 0 || year % 400 = 0)

def daysInMonth (year : Int) (month : Nat) : Nat :=
  match month with
  | 2 => if isLeap year then 29 else 28
  | 4 | 6 | 9 | 11 => 30
  | _ => 31

def isValid (d : Date) : Bool :=
  1 ≤ d.month && d.month ≤ 12 && 1 ≤ d.day && d.day ≤ daysInMonth d.year d.month

/-! ## Days -/

/-- The days of a period of 400 years. -/
def periodDays : Int := 146097

/-- The days from the first day of the period of 1970, a first of March, to 1970-01-01. -/
def epochDays : Int := 719468

/-- The day of a year that starts in March, from a month counted from March. -/
def dayOfYear (month day : Nat) : Nat := (153 * month + 2) / 5 + day - 1

/-- The days from 1970-01-01 to a date. -/
def toDays (d : Date) : Int :=
  let year := if d.month ≤ 2 then d.year - 1 else d.year
  let yearOfPeriod := year % 400
  let dayOfPeriod := yearOfPeriod * 365 + yearOfPeriod / 4 - yearOfPeriod / 100 +
    dayOfYear ((d.month + 9) % 12) d.day
  year / 400 * periodDays + dayOfPeriod - epochDays

/-- The date that many days after 1970-01-01. -/
def ofDays (days : Int) : Date :=
  let shifted := days + epochDays
  let dayOfPeriod := (shifted % periodDays).toNat
  let yearOfPeriod :=
    (dayOfPeriod - dayOfPeriod / 1460 + dayOfPeriod / 36524 - dayOfPeriod / 146096) / 365
  let day := dayOfPeriod - (365 * yearOfPeriod + yearOfPeriod / 4 - yearOfPeriod / 100)
  let march := (5 * day + 2) / 153
  let month := if march < 10 then march + 3 else march - 9
  let year := shifted / periodDays * 400 + yearOfPeriod
  ⟨if month ≤ 2 then year + 1 else year, month, day - (153 * march + 2) / 5 + 1⟩

end Date

end GraphQuery
