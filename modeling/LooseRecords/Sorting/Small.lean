/-!
# Sorting a few items

Stable sorting by a test `less`, which says of two items whether the first one belongs in front. Up
to 32 items are sorted by insertion, in two halves that are merged from both ends at once. Nothing
is known of the test. One that contradicts itself can make the two ends disagree about the items
between them, and then there is no result.
-/

namespace LooseRecords

namespace Sorting

variable {α : Type} (less : α → α → Bool)

/-! ## Insertion -/

/-- Put an item behind others, of which the last one stands first here, and move it in front of each
that it is less than. -/
def insertBehind (x : α) : List α → List α
  | [] => [x]
  | y :: ys => if less x y then y :: insertBehind x ys else x :: y :: ys

/-- Insert items into sorted ones, one after the other. -/
def insertAll (sorted more : List α) : List α :=
  (more.foldl (fun done x => insertBehind less x done) sorted.reverse).reverse

/-! ## Four items -/

/-- Two items in order. -/
def sortTwo (a b : α) : α × α := if less b a then (b, a) else (a, b)

/-- Four items in order, with five tests. -/
def sortFour (a b c d : α) : List α :=
  let (a, b) := sortTwo less a b
  let (c, d) := sortTwo less c d
  -- The ends are known now, and of the two items between them which one stood in front.
  let (first, left, right, last) := match less c a, less d b with
    | false, false => (a, b, c, d)
    | false, true => (a, c, d, b)
    | true, false => (c, a, b, d)
    | true, true => (c, a, d, b)
  let (left, right) := sortTwo less left right
  [first, left, right, last]

/-- The items in order, the first four of them sorted together and the others inserted. -/
def sortFromFour : List α → List α
  | a :: b :: c :: d :: rest => insertAll less (sortFour less a b c d) rest
  | few => insertAll less [] few

/-! ## Merging from both ends -/

/-- What merging has taken from two lists, and what is left of them. -/
structure Drawn (α : Type) where
  taken : List α
  left : List α
  right : List α

/-- Draw so many items from the front of two lists, of their first items the one on the right if it
is less. -/
def draw : Nat → List α → List α → Drawn α
  | n + 1, a :: as, b :: bs =>
    if less b a then
      let next := draw n (a :: as) bs
      { next with taken := b :: next.taken }
    else
      let next := draw n as (b :: bs)
      { next with taken := a :: next.taken }
  | _, as, bs => ⟨[], as, bs⟩

/-- Merge two sorted lists of which the right one has as many items as the left one or one more:
half of the items are taken from the front and half from the end, and an odd one stays between them.
There is no result if the two ends have taken an item twice. -/
def mergeEnds (as bs : List α) : Option (List α) :=
  let front := draw less as.length as bs
  let back := draw (fun a b => less b a) as.length bs.reverse as.reverse
  let left := front.left.length + back.right.length
  let right := front.right.length + back.left.length
  if as.length ≤ left ∧ bs.length ≤ right then
    some (front.taken ++ front.left.take (left - as.length) ++
      front.right.take (right - bs.length) ++ back.taken.reverse)
  else none

/-- Sort up to 32 items. -/
def sortSmall (xs : List α) : Option (List α) :=
  if xs.length < 2 then some xs
  else
    let half := xs.length / 2
    let sortHalf := if 8 ≤ xs.length then sortFromFour less else insertAll less []
    mergeEnds less (sortHalf (xs.take half)) (sortHalf (xs.drop half))

end Sorting

end LooseRecords
