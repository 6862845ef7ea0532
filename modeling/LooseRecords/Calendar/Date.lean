/-!
# Calendar dates

Dates of the proleptic Gregorian calendar and their numbering by days. Day `0` is 1970-01-01; the
numbering runs both ways without a gap.
-/

namespace LooseRecords

namespace Calendar

/-- A year has a 29th of February. -/
def isLeap (year : Int) : Bool := year % 4 == 0 && (year % 100 != 0 || year % 400 == 0)

/-- The lengths of the months of a year. -/
def monthLengths (year : Int) : List Nat :=
  [31, if isLeap year then 29 else 28, 31, 30, 31, 30, 31, 31, 30, 31, 30, 31]

/-- The number of the first day of a year: 365 days for each year, and one more for each leap
year, since the year 1; that year began 719162 days before 1970. -/
def firstDay (year : Int) : Int :=
  let past := year - 1
  365 * past + past / 4 - past / 100 + past / 400 - 719162

/-- The year that a day belongs to. The mean length of a year gives it up to one year. -/
def yearOf (day : Int) : Int :=
  let near := (day + 719162) * 400 / 146097 + 1
  if day < firstDay near then near - 1
  else if firstDay (near + 1) ≤ day then near + 1
  else near

/-- How many days the first months of the given lengths have. -/
def daysBefore : List Nat → Nat → Nat
  | length :: lengths, months + 1 => length + daysBefore lengths months
  | _, _ => 0

/-- How many months of the given lengths have passed after a number of days, and how many days of
the month after them. -/
def monthAndDay : List Nat → Nat → Nat × Nat
  | [], days => (0, days)
  | length :: lengths, days =>
    if days < length then (0, days)
    else
      let (months, rest) := monthAndDay lengths (days - length)
      (months + 1, rest)

/-- A calendar date. -/
structure Date where
  year : Int
  month : Nat
  day : Nat
  deriving DecidableEq, Repr

namespace Date

/-- The date exists in the calendar. -/
def isValid (d : Date) : Bool :=
  1 ≤ d.month && 1 ≤ d.day && d.day ≤ ((monthLengths d.year)[d.month - 1]?).getD 0

/-- The number of a date. -/
def dayNumber (d : Date) : Int :=
  firstDay d.year + daysBefore (monthLengths d.year) (d.month - 1) + d.day - 1

/-- The date with a number. -/
def ofDayNumber (day : Int) : Date :=
  let year := yearOf day
  let (months, days) := monthAndDay (monthLengths year) (day - firstDay year).toNat
  { year, month := months + 1, day := days + 1 }

end Date

end Calendar

end LooseRecords
