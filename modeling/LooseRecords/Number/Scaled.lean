import LooseRecords.Number.Arithmetic
import LooseRecords.Number.Numeral

/-!
# Numerals read by arithmetic

JSON does not ask for the number nearest to a numeral. It collects digits as long as they have 64
bits, rounds this integer, and multiplies it with, or divides it by, a power of ten that is rounded
as well. What is left out and each rounding may take the result away from the nearest number.
-/

namespace LooseRecords

namespace Decimal

/-- A power of ten as a number, finite up to `10 ^ 308`. -/
def tenPower (exponent : Nat) : Number := Number.ofNat (power exponent)

/-- A number divided by `10 ^ 308`, `n` times unless it is zero before. -/
def shrink : Nat → Number → Number
  | 0, x => x
  | n + 1, x => if x.isZero then x else shrink n (x.div (tenPower 308))

/-- The number that is computed for a decimal from its rounded digits. -/
def scaled (d : Decimal) : Number :=
  let digits := Number.ofNat d.digits
  match d.exponent with
  | .ofNat e =>
    if e ≤ 308 then digits.mul (tenPower e)
    else if digits.isZero then digits
    else .infinite false
  | .negSucc e => (shrink (e / 308) digits).div (tenPower (e % 308 + 1))

end Decimal

namespace Numeral

/-- The integer that digits make behind others, as long as it has 64 bits, and the digits from the
first one on with which it would not. -/
def takeDigits (number : Nat) : List Char → Nat × List Char
  | [] => (number, [])
  | c :: rest =>
    let longer := 10 * number + (c.toNat - '0'.toNat)
    if longer < UInt64.size then takeDigits longer rest else (number, c :: rest)

/-- The decimal that is left of a numeral if only digits that make an integer of 64 bits count.
Digits of the fraction may count even if some in front of the point do not. -/
def shortened (n : Numeral) : Decimal :=
  let (whole, left) := takeDigits 0 n.whole
  let (digits, ignored) := takeDigits whole (n.fraction.getD [])
  { digits, exponent := n.decimal.exponent + left.length + ignored.length }

/-- The number that is computed for a numeral, infinite if it is too great. -/
def scaled (n : Numeral) : Number :=
  match n.shortened.scaled with
  | .finite _ rank => .finite n.negative rank
  | _ => .infinite n.negative

end Numeral

end LooseRecords
