import LooseRecords.Sorting.Runs

/-!
# Sorting

Stable sorting by a test `less`: `sort`. Parts without order are divided by a pivot into the items
that are less and the others, until the parts are small.
-/

namespace LooseRecords

namespace Sorting

variable {α : Type}

/-! ## Pivots -/

/-- Of three positions the one whose item is between the others. -/
def median (below : Nat → Nat → Bool) (a b c : Nat) : Nat :=
  if below a b = below a c then
    if below b c = below a b then b else c
  else a

/-- A position between three others, each of which begins so many items: long stretches are
represented by a position of their own in the same way. -/
def pseudoMedian (below : Nat → Nat → Bool) (n a b c : Nat) : Nat :=
  if h : 8 ≤ n then
    let k := n / 8
    have : n / 8 < n := Nat.div_lt_self (by omega) (by decide)
    median below (pseudoMedian below k a (a + 4 * k) (a + 7 * k))
      (pseudoMedian below k b (b + 4 * k) (b + 7 * k))
      (pseudoMedian below k c (c + 4 * k) (c + 7 * k))
  else median below a b c

variable (less : α → α → Bool)

/-- The position of the pivot in a list. -/
def pivotPosition (xs : List α) : Nat :=
  let below (i j : Nat) : Bool :=
    match xs[i]?, xs[j]? with
    | some x, some y => less x y
    | _, _ => false
  let k := xs.length / 8
  pseudoMedian below k 0 (4 * k) (7 * k)

/-! ## Partitions -/

/-- A list around its pivot. -/
structure Pivoted (α : Type) where
  front : List α
  pivot : α
  behind : List α

namespace Pivoted

/-- The list around the item at a position. -/
def ofPosition? (xs : List α) (position : Nat) : Option (Pivoted α) :=
  match xs.drop position with
  | pivot :: behind => some ⟨xs.take position, pivot, behind⟩
  | [] => none

/-- The items that pass a test, and the pivot if it is to be among them. -/
def select (p : Pivoted α) (withPivot : Bool) (test : α → Bool) : List α :=
  p.front.filter test ++ (if withPivot then [p.pivot] else []) ++ p.behind.filter test

end Pivoted

/-- Sort a list by dividing it, down to a number of levels and then by runs that are sorted at once.
`bound` is the pivot that the list lies behind, if there is one: where the pivot is not greater, or
where nothing is less than the pivot, the items that are not greater are in place in front of all
others. -/
def sortParts : Nat → Option α → List α → Option (List α)
  | 0, _, xs => if xs.length ≤ 32 then sortSmall less xs else sortRuns less true 0 some xs
  | levels + 1, bound, xs =>
    if xs.length ≤ 32 then sortSmall less xs
    else do
      let parts ← Pivoted.ofPosition? xs (pivotPosition less xs)
      let lower := parts.select false (less · parts.pivot)
      if bound.any (!less · parts.pivot) || lower.isEmpty then do
        let rest ← sortParts levels none (parts.select false (less parts.pivot ·))
        return parts.select true (!less parts.pivot ·) ++ rest
      else do
        let upper ← sortParts levels (some parts.pivot) (parts.select true (!less · parts.pivot))
        let lower ← sortParts levels bound lower
        return lower ++ upper

/-- Sort a list by dividing it. -/
def sortLater (xs : List α) : Option (List α) := sortParts less (2 * xs.length.log2) none xs

/-- How many items there is room for beside a list of so many. -/
def roomFor (n : Nat) : Nat := max (n - n / 2) (min n 111111)

/-- Sort a list. Up to 20 items are inserted one after the other, and up to 64 in sorted runs. There
is no result if the test is found to contradict itself. -/
def sort (xs : List α) : Option (List α) :=
  let n := xs.length
  if n ≤ 20 then some (insertAll less [] xs)
  else sortRuns less (n ≤ 64) (roomFor n) (sortLater less) xs

end Sorting

end LooseRecords
