import LooseRecords.Calendar.Date
import LooseRecords.Number.Numeral

/-!
# Instants

Points in time with a precision of one millisecond, and their ISO 8601 form. `Instant.iso` writes
an instant in UTC; `Instant.readIso?` reads dates, and dates with a time and an offset.
-/

namespace LooseRecords

/-- A point in time, in milliseconds since 1970-01-01T00:00:00Z. -/
structure Instant where
  millis : Int
  deriving DecidableEq, Repr

namespace Instant

/-- Milliseconds of a day. -/
def dayLength : Int := 86400000

/-! ## Writing -/

/-- A natural number with zeros in front up to a width. -/
def padded (width n : Nat) : List Char :=
  let digits := Nat.toDigits 10 n
  List.replicate (width - digits.length) '0' ++ digits

/-- A year of four digits; years outside `0` to `9999` carry a sign. -/
def yearText (year : Int) : List Char :=
  let digits := padded 4 year.natAbs
  if year < 0 then '-' :: digits else if 9999 < year then '+' :: digits else digits

/-- The ISO form of an instant, in UTC and with milliseconds. -/
def iso (t : Instant) : List Char :=
  let date := Calendar.Date.ofDayNumber (t.millis / dayLength)
  let time := (t.millis % dayLength).toNat
  yearText date.year ++ '-' :: padded 2 date.month ++ '-' :: padded 2 date.day ++
    'T' :: padded 2 (time / 3600000) ++ ':' :: padded 2 (time / 60000 % 60) ++
    ':' :: padded 2 (time / 1000 % 60) ++ '.' :: padded 3 (time % 1000) ++ ['Z']

/-! ## Reading -/

/-- The number that the first `count` characters write, if they are digits, and the rest. -/
def takeNumber? (count : Nat) (text : List Char) : Option (Nat × List Char) :=
  let digits := text.take count
  if digits.length = count && digits.all Char.isDigit then
    some (Numeral.natural digits, text.drop count)
  else none

/-- The rest of a text that starts with a character. -/
def after? (c : Char) : List Char → Option (List Char)
  | first :: rest => if first = c then some rest else none
  | [] => none

/-- The milliseconds that the digits of a fraction of a second write; the fourth digit and those
after it are dropped. -/
def fractionMillis (digits : List Char) : Nat :=
  Numeral.natural ((digits ++ ['0', '0']).take 3)

/-- Milliseconds from a fraction of one to nine digits, if a point announces one, and the rest. -/
def takeFraction? : List Char → Option (Nat × List Char)
  | '.' :: text =>
    let digits := text.takeWhile Char.isDigit
    if 1 ≤ digits.length && digits.length ≤ 9 then
      some (fractionMillis digits, text.dropWhile Char.isDigit)
    else none
  | text => some (0, text)

/-- Milliseconds from seconds with a fraction, if a colon announces them, and the rest. -/
def takeSeconds? : List Char → Option (Nat × List Char)
  | ':' :: text => do
    let (second, text) ← takeNumber? 2 text
    let (millis, text) ← takeFraction? text
    if second ≤ 59 then some (second * 1000 + millis, text) else none
  | text => some (0, text)

/-- The time of the day in milliseconds, and the rest. -/
def takeTime? (text : List Char) : Option (Nat × List Char) := do
  let (hour, text) ← takeNumber? 2 text
  let text ← after? ':' text
  let (minute, text) ← takeNumber? 2 text
  let (millis, text) ← takeSeconds? text
  if hour ≤ 23 && minute ≤ 59 then some (hour * 3600000 + minute * 60000 + millis, text) else none

/-- Hours and minutes of an offset, with or without a colon between them, in minutes. -/
def offsetMinutes? (text : List Char) : Option Int := do
  let (hours, text) ← takeNumber? 2 text
  let (minutes, text) ← takeNumber? 2 ((after? ':' text).getD text)
  if text = [] && hours ≤ 23 && minutes ≤ 59 then some (hours * 60 + minutes) else none

/-- The offset from UTC in minutes that a text consists of; none is written for UTC or as `Z`. -/
def offset? : List Char → Option Int
  | [] | ['Z'] => some 0
  | '+' :: text => offsetMinutes? text
  | '-' :: text => (offsetMinutes? text).map (- ·)
  | _ => none

/-- The time in milliseconds and the offset in minutes that follow a date; both may be left out. -/
def timeAndOffset? : List Char → Option (Nat × Int)
  | [] => some (0, 0)
  | 'T' :: text => do
    let (time, text) ← takeTime? text
    let offset ← offset? text
    some (time, offset)
  | _ => none

/-- The instant that an ISO text stands for. -/
def readIso? (text : List Char) : Option Instant := do
  let (year, text) ← takeNumber? 4 text
  let text ← after? '-' text
  let (month, text) ← takeNumber? 2 text
  let text ← after? '-' text
  let (day, text) ← takeNumber? 2 text
  let (time, offset) ← timeAndOffset? text
  let date : Calendar.Date := { year, month, day }
  if date.isValid then some ⟨date.dayNumber * dayLength + time - offset * 60000⟩ else none

end Instant

end LooseRecords
