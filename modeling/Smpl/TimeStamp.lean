/-!
# Time stamps

A moment is counted in seconds from the beginning of 1970 and written as date and time of day in
universal time.

The date is found by counting from the first of March of the year zero, so that the leap day is the
last day of a year, in cycles of four hundred years.
-/

namespace Smpl.TimeStamp

/-- A date. -/
structure Date where
  year : Nat
  month : Nat
  day : Nat
  deriving DecidableEq, Repr

/-- The days from the first of March of the year zero to the first of January 1970. -/
def daysBefore1970 : Nat := 719468

/-- The days of four hundred years. -/
def daysInCycle : Nat := 146097

/-- The date of a day, counted from the first of January 1970. -/
def dateOfDay (day : Nat) : Date :=
  let count := day + daysBefore1970
  let inCycle := count % daysInCycle
  let yearOfCycle :=
    (inCycle - inCycle / 1460 + inCycle / 36524 - inCycle / (daysInCycle - 1)) / 365
  let inYear := inCycle - (365 * yearOfCycle + yearOfCycle / 4 - yearOfCycle / 100)
  let fromMarch := (5 * inYear + 2) / 153
  let month := if fromMarch < 10 then fromMarch + 3 else fromMarch - 9
  let year := yearOfCycle + 400 * (count / daysInCycle)
  { year := if month ≤ 2 then year + 1 else year
    month := month
    day := inYear - (153 * fromMarch + 2) / 5 + 1 }

/-- A number with at least `width` digits. -/
def padded (width n : Nat) : String :=
  let digits := toString n
  String.ofList (List.replicate (width - digits.length) '0') ++ digits

/-- The time stamp of a moment. -/
def ofSeconds (seconds : Nat) : String :=
  let date := dateOfDay (seconds / 86400)
  let inDay := seconds % 86400
  padded 4 date.year ++ "-" ++ padded 2 date.month ++ "-" ++ padded 2 date.day ++ "T" ++
    padded 2 (inDay / 3600) ++ ":" ++ padded 2 (inDay / 60 % 60) ++ ":" ++
      padded 2 (inDay % 60) ++ "Z"

end Smpl.TimeStamp
