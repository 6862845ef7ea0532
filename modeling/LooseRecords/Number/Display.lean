import LooseRecords.Number.Layout

/-!
# Display text of numbers

The text under which numbers are searched, compared and joined.
-/

namespace LooseRecords

namespace Number

/-- Displayed numbers are positional from `10 ^ (-6)` up to `10 ^ 21`, have no fraction if they are
whole, and take the greater of two equally near digit sequences. -/
def displayLayout : Layout where
  least := -5
  greatest := 21
  keepsFraction := false
  tie := .up

/-- The display text of a finite magnitude: whole magnitudes below `10 ^ 21` have all their digits,
others the fewest that read back. -/
def displayMagnitude (rank : Nat) : List Char :=
  let whole := Rank.units rank / Rank.one
  if Rank.units rank % Rank.one = 0 && whole < Decimal.power 21 then Nat.toDigits 10 whole
  else displayLayout.magnitude rank

/-- The display text of a number. Neither zero has a sign. -/
def display : Number → List Char
  | .nan => "NaN".toList
  | .infinite negative => signChars negative ++ "Infinity".toList
  | .finite negative rank =>
    signChars (negative && rank.val != 0) ++ displayMagnitude rank.val

end Number

end LooseRecords
