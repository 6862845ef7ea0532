import LooseRecords.Number.Arithmetic

/-!
# Aggregates

Count, sum, mean and range of a list of numbers.
-/

namespace LooseRecords

/-- A summary of numbers. -/
structure Aggregate where
  count : Nat
  sum : Number
  mean : Number
  least : Number
  greatest : Number
  deriving DecidableEq

namespace Aggregate

/-- The summary of a list. Without numbers the mean is zero, and the range runs from positive to
negative infinity. -/
def ofList (xs : List Number) : Aggregate where
  count := xs.length
  sum := Number.sum xs
  mean := if xs.isEmpty then .zero else (Number.sum xs).div (.ofNat xs.length)
  least := xs.foldl Number.min (.infinite false)
  greatest := xs.foldl Number.max (.infinite true)

end Aggregate

end LooseRecords
