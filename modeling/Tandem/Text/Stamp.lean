/-!
# Time stamps

A point in time is a number of milliseconds since the beginning of 1970, leap seconds left
aside. Its stamp is the date and the time of day in the common calendar, in the form
`1970-01-01T00:00:00.000Z`.

Dates are found in years that begin in March, so that the leap day is the last day of a year.
The first such year began 719468 days before 1970, and 400 of them have 146097 days.
-/

namespace Tandem.Stamp

/-- A date of the common calendar. -/
structure Date where
  year : Nat
  month : Nat
  day : Nat
deriving DecidableEq, Repr

/-- The days of a cycle of 400 years. -/
def cycleDays : Nat := 146097

/-- The year of a cycle, counted from March, that the day of the cycle is in. -/
def yearOfCycle (day : Nat) : Nat :=
  (day - day / 1460 + day / 36524 - day / 146096) / 365

/-- The days of a cycle before a year of it. -/
def daysBefore (year : Nat) : Nat :=
  365 * year + year / 4 - year / 100

/-- The month, counted from March, that a day of a year is in. -/
def monthOfYear (day : Nat) : Nat :=
  (5 * day + 2) / 153

/-- The date of a day counted from the beginning of 1970. -/
def date (days : Nat) : Date :=
  let day := (days + 719468) % cycleDays
  let year := (days + 719468) / cycleDays * 400 + yearOfCycle day
  let ofYear := day - daysBefore (yearOfCycle day)
  let month := monthOfYear ofYear
  { year := if month < 10 then year else year + 1
    month := if month < 10 then month + 3 else month - 9
    day := ofYear - (153 * month + 2) / 5 + 1 }

/-- The number with at least so many digits. -/
def digits (width n : Nat) : String :=
  String.ofList (List.replicate (width - n.repr.length) '0') ++ n.repr

/-- The stamp of a point in time. -/
def ofMilliseconds (t : Nat) : String :=
  let d := date (t / 86400000)
  digits 4 d.year ++ "-" ++ digits 2 d.month ++ "-" ++ digits 2 d.day ++ "T" ++
    digits 2 (t / 3600000 % 24) ++ ":" ++ digits 2 (t / 60000 % 60) ++ ":" ++
    digits 2 (t / 1000 % 60) ++ "." ++ digits 3 (t % 1000) ++ "Z"

end Tandem.Stamp
