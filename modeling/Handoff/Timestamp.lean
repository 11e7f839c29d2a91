/-!
# Points in time

A point in time as text: date and time of day in UTC with milliseconds, in the
Gregorian calendar extended to all years.
-/

namespace Handoff

/-- A date of the Gregorian calendar. -/
structure Date where
  /-- The year; the year before 1 is 0. -/
  year : Int
  /-- The month, from 1. -/
  month : Nat
  /-- The day of the month, from 1. -/
  day : Nat
  deriving DecidableEq, Repr

/--
The date that lies `days` after the first of January 1970. Days are counted from the first of March
of the year 0, in cycles of 400 years, so that the leap day is the last of its year.
-/
def Date.ofDays (days : Int) : Date :=
  let fromMarch := days + 719468
  let cycle := fromMarch / 146097
  let day := (fromMarch % 146097).toNat
  let year := (day - day / 1460 + day / 36524 - day / 146096) / 365
  let dayOfYear := day - (365 * year + year / 4 - year / 100)
  let month := (5 * dayOfYear + 2) / 153
  { year := year + cycle * 400 + (if month < 10 then 0 else 1)
    month := if month < 10 then month + 3 else month - 9
    day := dayOfYear - (153 * month + 2) / 5 + 1 }

namespace Timestamp

/-- A number in decimal with at least `width` digits. -/
def padded (width n : Nat) : String :=
  let digits := Nat.toDigits 10 n
  .ofList (List.replicate (width - digits.length) '0' ++ digits)

/-- A year with four digits; outside of them with its sign. -/
def yearText (year : Int) : String :=
  if 0 ≤ year ∧ year ≤ 9999 then padded 4 year.toNat
  else (if year < 0 then "-" else "+") ++ padded 4 year.natAbs

/-- The text of the point in time `millis` milliseconds after the start of 1970. -/
def ofMillis (millis : Int) : String :=
  let date := Date.ofDays (millis / 86400000)
  let time := (millis % 86400000).toNat
  yearText date.year ++ "-" ++ padded 2 date.month ++ "-" ++ padded 2 date.day
    ++ "T" ++ padded 2 (time / 3600000) ++ ":" ++ padded 2 (time / 60000 % 60)
    ++ ":" ++ padded 2 (time / 1000 % 60) ++ "." ++ padded 3 (time % 1000) ++ "Z"

end Timestamp

end Handoff
