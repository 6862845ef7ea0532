import LooseRecords.Number.Basic

/-!
# Decimals

A decimal is a natural number of units times a power of ten. `Decimal.rank` reads one as the
nearest binary magnitude; `Rank.shortest` finds, for a positive magnitude, a decimal of the fewest
digits that reads back as it.
-/

namespace LooseRecords

/-- The value `digits * 10 ^ exponent`. -/
structure Decimal where
  digits : Nat
  exponent : Int
  deriving DecidableEq, Repr

namespace Decimal

/-- A power of ten. -/
def power (exponent : Nat) : Nat := Nat.pow 10 exponent

/-- The rank of the magnitude nearest to a decimal, `Rank.count` if it rounds to infinity. Decimals
from `10 ^ 310` on are infinite and those below `10 ^ (-324)` are zero, so no greater power of ten
is ever computed. -/
def rank (d : Decimal) : Nat :=
  if d.digits = 0 then 0
  else match d.exponent with
    | .ofNat e =>
      if 310 ≤ e then Rank.count
      else Nat.min (Rank.nearest (d.digits * power e * Rank.one) 1) Rank.count
    | .negSucc e =>
      if Nat.log2 d.digits + 325 ≤ e + 1 then 0
      else Nat.min (Rank.nearest (d.digits * Rank.one) (power (e + 1))) Rank.count

/-- The number nearest to a signed decimal. -/
def number (negative : Bool) (d : Decimal) : Number := Number.ofRank negative d.rank

/-- Which of two equally near decimals is chosen. -/
inductive Tie where
  /-- The greater one. -/
  | up
  /-- The one whose last digit is even. -/
  | even
  deriving DecidableEq, Repr

/-- The nearer of the neighbours `low` and `low + 1` of `exact / step`. -/
def nearer (tie : Tie) (exact step low : Nat) : Nat :=
  let middle := (2 * low + 1) * step
  if 2 * exact < middle then low
  else if middle < 2 * exact then low + 1
  else match tie with
    | .up => low + 1
    | .even => low + low % 2

end Decimal

namespace Rank

/-- A magnitude as an exact decimal: `units rank * 2 ^ (-1074)` is
`units rank * 5 ^ 1074 * 10 ^ (-1074)`. -/
def exact (rank : Nat) : Decimal := ⟨units rank * Nat.pow 5 1074, -1074⟩

/-- The decimal nearest to a magnitude among those that keep all but the last `dropped` digits of
its exact decimal, if any of them reads back as that magnitude. -/
def onGrid? (tie : Decimal.Tie) (rank dropped : Nat) : Option Decimal :=
  let digits := (exact rank).digits
  let step := Decimal.power dropped
  let low := digits / step
  let candidate (n : Nat) : Decimal := ⟨n, (dropped : Int) - 1074⟩
  let lowReads := (candidate low).rank == rank
  let highReads := (candidate (low + 1)).rank == rank
  if lowReads && highReads then some (candidate (Decimal.nearer tie digits step low))
  else if lowReads then some (candidate low)
  else if highReads then some (candidate (low + 1))
  else none

/-- The decimal of the fewest digits that reads back as a positive magnitude, and of those the
nearest to it. The exact decimal itself reads back, so the search always ends with one. -/
def shortest (tie : Decimal.Tie) (rank : Nat) : Decimal :=
  let size := (Nat.toDigits 10 (exact rank).digits).length
  let found := (List.range size).findSome? fun kept => onGrid? tie rank (size - (kept + 1))
  found.getD (exact rank)

end Rank

end LooseRecords
