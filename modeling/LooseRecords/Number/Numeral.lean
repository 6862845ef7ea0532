import LooseRecords.Number.Decimal

/-!
# Numerals

A numeral is a number as it is written in decimal: an optional sign, digits with an optional
point, an optional power of ten. `Numeral.ofChars?` takes the widest shape apart; the places that
read numbers differ only in which shapes they admit.
-/

namespace LooseRecords

/-- The parts of a written number. Digit lists may be empty. -/
structure Numeral where
  /-- The sign character, if one is written. -/
  sign : Option Char
  /-- The digits in front of the point. -/
  whole : List Char
  /-- The digits after the point, if one is written. -/
  fraction : Option (List Char)
  /-- Whether the power of ten is negative, and its digits, if one is written. -/
  power : Option (Bool × List Char)
  deriving DecidableEq

namespace Numeral

/-- The natural number that decimal digits denote. -/
def natural (digits : List Char) : Nat := Nat.ofDigitChars 10 digits 0

/-- A sign in front of a text, and what follows it. -/
def takeSign : List Char → Option Char × List Char
  | '+' :: rest => (some '+', rest)
  | '-' :: rest => (some '-', rest)
  | text => (none, text)

/-- The written power of ten that a text consists of; the empty text writes none. -/
def power? : List Char → Option (Option (Bool × List Char))
  | [] => some none
  | c :: rest =>
    if c = 'e' || c = 'E' then
      let (sign, digits) := takeSign rest
      if !digits.isEmpty && digits.all Char.isDigit then some (some (sign == some '-', digits))
      else none
    else none

/-- The parts of a text that is a written number, in the widest sense. -/
def ofChars? (text : List Char) : Option Numeral :=
  let (sign, text) := takeSign text
  let whole := text.takeWhile Char.isDigit
  match text.dropWhile Char.isDigit with
  | '.' :: rest =>
    (power? (rest.dropWhile Char.isDigit)).map fun power =>
      { sign, whole, fraction := some (rest.takeWhile Char.isDigit), power }
  | rest => (power? rest).map fun power => { sign, whole, fraction := none, power }

/-- A minus sign is written. -/
def negative (n : Numeral) : Bool := n.sign == some '-'

/-- The magnitude that a numeral denotes. -/
def decimal (n : Numeral) : Decimal :=
  let fraction := n.fraction.getD []
  let power : Int := match n.power with
    | none => 0
    | some (negative, digits) => if negative then -(natural digits : Int) else natural digits
  { digits := natural (n.whole ++ fraction), exponent := power - fraction.length }

/-- The number nearest to what a numeral denotes. -/
def number (n : Numeral) : Number := n.decimal.number n.negative

/-- Some digit stands around the point. -/
def hasDigits (n : Numeral) : Bool := !(n.whole ++ n.fraction.getD []).isEmpty

/-- Digits with an optional fraction of at least one digit, and no power of ten. -/
def isPlain (n : Numeral) : Bool :=
  n.power.isNone && n.hasDigits && n.fraction != some []

/-- A numeral of JSON: no plus sign in front, digits without a needless leading zero, and no bare
point. -/
def isJson (n : Numeral) : Bool :=
  n.sign != some '+' && (n.whole == ['0'] || (!n.whole.isEmpty && n.whole.head? != some '0')) &&
    n.fraction != some []

/-- The integer of a numeral without point and power of ten. Negative zero is none. -/
def toInt? (n : Numeral) : Option Int :=
  if n.fraction.isNone && n.power.isNone then
    let magnitude := natural n.whole
    if n.negative then if magnitude = 0 then none else some (-magnitude)
    else some magnitude
  else none

end Numeral

end LooseRecords
