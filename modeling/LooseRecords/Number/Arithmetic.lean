import LooseRecords.Number.Basic

/-!
# Arithmetic

Sum, product and quotient of numbers: the exact result, rounded once to the nearest number with
ties to the even rank.
-/

namespace LooseRecords

namespace Number

/-- The sum. Opposite infinities have none; a zero sum is negative only if both terms are. -/
def add : Number → Number → Number
  | .nan, _ | _, .nan => .nan
  | .infinite a, .infinite b => if a = b then .infinite a else .nan
  | .infinite a, .finite _ _ => .infinite a
  | .finite _ _, .infinite b => .infinite b
  | .finite a ra, .finite b rb =>
    let x : Int := if a then -(Rank.units ra.val : Int) else Rank.units ra.val
    let y : Int := if b then -(Rank.units rb.val : Int) else Rank.units rb.val
    if x + y = 0 then ofRank (a && b) 0
    else ofRank (x + y < 0) (Rank.nearest (x + y).natAbs 1)

/-- The product. Zero times an infinity has none. -/
def mul : Number → Number → Number
  | .nan, _ | _, .nan => .nan
  | .infinite a, .infinite b => .infinite (a != b)
  | .infinite a, .finite b r | .finite b r, .infinite a =>
    if r.val = 0 then .nan else .infinite (a != b)
  | .finite a ra, .finite b rb =>
    ofRank (a != b) (Rank.nearest (Rank.units ra.val * Rank.units rb.val) Rank.one)

/-- The quotient. Zero by zero and infinity by infinity have none. -/
def div : Number → Number → Number
  | .nan, _ | _, .nan => .nan
  | .infinite _, .infinite _ => .nan
  | .infinite a, .finite b _ => .infinite (a != b)
  | .finite a _, .infinite b => ofRank (a != b) 0
  | .finite a ra, .finite b rb =>
    if rb.val = 0 then if ra.val = 0 then .nan else .infinite (a != b)
    else ofRank (a != b) (Rank.nearest (Rank.units ra.val * Rank.one) (Rank.units rb.val))

/-- The sum of a list from left to right; the empty sum is negative zero. -/
def sum (xs : List Number) : Number := xs.foldl add (ofRank true 0)

end Number

end LooseRecords
