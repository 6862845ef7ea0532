import LooseRecords.Sorting.Small

/-!
# Sorting by runs

A list is cut into runs, and neighbouring runs are merged in the order of a balanced tree. A run is
a part that stands in order as it is, a few items that are sorted at once, or a part that is left
unsorted: neighbours of that kind are put together, to be sorted as one when the merging needs it.
-/

namespace LooseRecords

namespace Sorting

variable {α : Type} (less : α → α → Bool)

/-! ## Merging -/

/-- Two lists as one, from the front: an item on the right stands in front of the items on the left
from the first one on that it is less than. -/
def mergeFront : List α → List α → List α
  | [], bs => bs
  | a :: as, bs => bs.takeWhile (less · a) ++ a :: mergeFront as (bs.dropWhile (less · a))

/-- Two lists as one, from the end. -/
def mergeBack (as bs : List α) : List α :=
  (mergeFront (fun a b => less b a) bs.reverse as.reverse).reverse

/-- Two lists as one. The shorter one decides at which end the merging begins. -/
def merge (as bs : List α) : List α :=
  if as.length ≤ bs.length then mergeFront less as bs else mergeBack less as bs

/-! ## Runs -/

/-- A part of a list, sorted or left for later. -/
structure Run (α : Type) where
  items : List α
  sorted : Bool

/-- Items as long as each of them passes a test with the one in front of it. -/
def climb (test : α → α → Bool) : α → List α → List α
  | _, [] => []
  | last, x :: xs => if test last x then x :: climb test x xs else []

/-- The items at the front that stand in order, or that stand in falling order and are turned
round. -/
def leadingRun : List α → List α
  | a :: b :: rest =>
    if less b a then (a :: climb (fun last x => less x last) a (b :: rest)).reverse
    else a :: climb (fun last x => !less x last) a (b :: rest)
  | few => few

/-- The run at the front of a list. What stands in order is a run if it is long enough; otherwise
some items are sorted at once if the sorting is eager, and left for later if not. -/
def nextRun (eager : Bool) (least : Nat) (xs : List α) : Option (Run α) :=
  let found := leadingRun less xs
  if least ≤ found.length then some ⟨found, true⟩
  else if eager then (sortSmall less (xs.take 32)).map fun sorted => ⟨sorted, true⟩
  else some ⟨xs.take least, false⟩

/-- The runs of a list, no more than a number of them. -/
def runs (eager : Bool) (least : Nat) : Nat → List α → Option (List (Run α))
  | limit + 1, x :: xs => do
    let run ← nextRun less eager least (x :: xs)
    let rest ← runs eager least limit ((x :: xs).drop run.items.length)
    return run :: rest
  | _, _ => some []

/-- The least length of a run that is found, of so many items in all: half of them but no more than
64, and for many items about their square root. -/
def leastRun (n : Nat) : Nat :=
  if n ≤ 4096 then min (n - n / 2) 64
  else
    let shift := (1 + n.log2) / 2
    ((1 <<< shift) + (n >>> shift)) / 2

/-! ## The tree of merges -/

/-- A run as a sorted list. -/
def Run.finished (finish : List α → Option (List α)) (run : Run α) : Option (List α) :=
  if run.sorted then some run.items else finish run.items

/-- Two neighbouring runs as one. They are merged if one of them is sorted or if there is no room to
sort them together. -/
def Run.join (finish : List α → Option (List α)) (room : Nat) (left right : Run α) :
    Option (Run α) :=
  if left.sorted || right.sorted || room < left.items.length + right.items.length then do
    let as ← left.finished finish
    let bs ← right.finished finish
    return ⟨merge less as bs, true⟩
  else some ⟨left.items ++ right.items, false⟩

/-- How deep in the tree two neighbouring runs meet, from where they begin, meet and end: the
number of leading bits that the middles of both have in common, as parts of the whole length. -/
def meetingDepth (scale first middle last : Nat) : Nat :=
  let parted := Nat.xor (scale * (first + middle)) (scale * (middle + last))
  if parted = 0 then 64 else 63 - parted.log2

/-- Merge a run with those in front of it that it meets at some depth or deeper. Each run in front
has the depth where it meets the one behind it, and the nearest stands first. -/
def collapse (join : Run α → Run α → Option (Run α)) (depth : Nat) :
    List (Nat × Run α) → Run α → Option (List (Nat × Run α) × Run α)
  | (deeper, left) :: front, run =>
    if depth ≤ deeper then do
      let joined ← join left run
      collapse join depth front joined
    else some ((deeper, left) :: front, run)
  | [], run => some ([], run)

/-- Merge runs into one, in the order of the tree. The last run so far begins at `first`. -/
def joinAll (join : Run α → Run α → Option (Run α)) (scale : Nat) :
    Nat → List (Nat × Run α) → Run α → List (Run α) → Option (Run α)
  | _, front, run, [] => (collapse join 0 front run).map Prod.snd
  | first, front, run, next :: rest => do
    let middle := first + run.items.length
    let depth := meetingDepth scale first middle (middle + next.items.length)
    let (front, joined) ← collapse join depth front run
    joinAll join scale middle ((depth, joined) :: front) next rest

/-- Sort a list by its runs. -/
def sortRuns (eager : Bool) (room : Nat) (finish : List α → Option (List α)) (xs : List α) :
    Option (List α) := do
  let n := xs.length
  match ← runs less eager (leastRun n) n xs with
  | [] => return []
  | run :: rest =>
    let scale := ((1 <<< 62) + n - 1) / n
    let whole ← joinAll (Run.join less finish room) scale 0 [] run rest
    whole.finished finish

end Sorting

end LooseRecords
