import LooseRecords.Number.Decimal

/-!
# Layouts of numbers

A layout says how the digits of a finite number become text: which numbers are written
positionally and which with an exponent, whether a whole number keeps a fraction, and which of
two equally near digit sequences is taken.
-/

namespace LooseRecords

namespace Number

/-- How a positive magnitude is written. The point of `0.ddd * 10 ^ point` lies `point` places to
the right of the first digit. -/
structure Layout where
  /-- The least `point` that is still written positionally. -/
  least : Int
  /-- The greatest `point` that is still written positionally. -/
  greatest : Int
  /-- Whether `.0` follows a whole number that is written positionally. -/
  keepsFraction : Bool
  /-- Which of two equally near shortest digit sequences is written. -/
  tie : Decimal.Tie

namespace Layout

/-- `n` zeros. -/
def zeros (n : Nat) : List Char := List.replicate n '0'

/-- The digits of a decimal without trailing zeros, and its point. -/
def digitsAndPoint (d : Decimal) : List Char × Int :=
  let all := Nat.toDigits 10 d.digits
  ((all.reverse.dropWhile (· == '0')).reverse, all.length + d.exponent)

/-- Digits with the point set among them. -/
def positional (keepsFraction : Bool) (digits : List Char) (point : Int) : List Char :=
  if point ≤ 0 then '0' :: '.' :: (zeros (-point).toNat ++ digits)
  else if point < digits.length then
    digits.take point.toNat ++ '.' :: digits.drop point.toNat
  else
    digits ++ zeros (point.toNat - digits.length) ++ if keepsFraction then ['.', '0'] else []

/-- Digits with the point after the first one, and the signed exponent that this takes. -/
def scientific (digits : List Char) (point : Int) : List Char :=
  let exponent := point - 1
  let mantissa := match digits with
    | d :: e :: rest => d :: '.' :: e :: rest
    | short => short
  mantissa ++ 'e' :: (if exponent < 0 then '-' else '+') :: Nat.toDigits 10 exponent.natAbs

/-- The text of a positive magnitude. -/
def magnitude (layout : Layout) (rank : Nat) : List Char :=
  let (digits, point) := digitsAndPoint (Rank.shortest layout.tie rank)
  if layout.least ≤ point && point ≤ layout.greatest then
    positional layout.keepsFraction digits point
  else scientific digits point

end Layout

/-- A minus sign, if there is one. -/
def signChars (negative : Bool) : List Char := if negative then ['-'] else []

end Number

end LooseRecords
