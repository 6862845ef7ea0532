import LooseRecords.Sorting.Drift

/-!
# Sorting what a function makes of items

A sorting knows its items by the answers of the test alone. Sorting what a function makes of the
items is sorting the items by what it makes of them: `Sorting.sort_map`.
-/

namespace LooseRecords

namespace Sorting

section

variable {α β : Type} (less : α → α → Bool) (f : β → α)

/-! ## A few items -/

theorem insertBehind_map (x : β) (ys : List β) : insertBehind less (f x) (ys.map f) =
    (insertBehind (fun a b => less (f a) (f b)) x ys).map f := by
  induction ys with
  | nil => rfl
  | cons y ys ih =>
    rw [List.map_cons, insertBehind, insertBehind]
    split
    · rw [ih, List.map_cons]
    · rfl

theorem insertAll_map (sorted more : List β) : insertAll less (sorted.map f) (more.map f) =
    (insertAll (fun a b => less (f a) (f b)) sorted more).map f := by
  have hfold : ∀ done : List β, (more.map f).foldl (fun done x => insertBehind less x done)
      (done.map f) = (more.foldl (fun done x =>
        insertBehind (fun a b => less (f a) (f b)) x done) done).map f := by
    induction more with
    | nil => exact fun _ => rfl
    | cons x more ih =>
      intro done
      rw [List.map_cons, List.foldl_cons, List.foldl_cons, insertBehind_map, ih]
  rw [insertAll, insertAll, ← List.map_reverse, hfold, List.map_reverse]

theorem sortTwo_map (a b : β) : sortTwo less (f a) (f b) =
    Prod.map f f (sortTwo (fun a b => less (f a) (f b)) a b) := by
  rw [sortTwo, sortTwo]
  split <;> rfl

theorem sortFour_map (a b c d : β) : sortFour less (f a) (f b) (f c) (f d) =
    (sortFour (fun a b => less (f a) (f b)) a b c d).map f := by
  rw [sortFour, sortFour, sortTwo_map, sortTwo_map]
  generalize sortTwo (fun a b => less (f a) (f b)) a b = low
  generalize sortTwo (fun a b => less (f a) (f b)) c d = high
  obtain ⟨a', b'⟩ := low
  obtain ⟨c', d'⟩ := high
  simp only [Prod.map_apply]
  split <;> simp [sortTwo_map]

theorem sortFromFour_map (xs : List β) : sortFromFour less (xs.map f) =
    (sortFromFour (fun a b => less (f a) (f b)) xs).map f := by
  match xs with
  | a :: b :: c :: d :: rest =>
    show insertAll less (sortFour less (f a) (f b) (f c) (f d)) (rest.map f) = _
    rw [sortFour_map, insertAll_map]
    rfl
  | [] => exact insertAll_map less f [] []
  | [a] => exact insertAll_map less f [] [a]
  | [a, b] => exact insertAll_map less f [] [a, b]
  | [a, b, c] => exact insertAll_map less f [] [a, b, c]

/-- What has been drawn, item by item. -/
def Drawn.map (drawn : Drawn β) : Drawn α :=
  ⟨drawn.taken.map f, drawn.left.map f, drawn.right.map f⟩

theorem draw_map (n : Nat) (as bs : List β) : draw less n (as.map f) (bs.map f) =
    (draw (fun a b => less (f a) (f b)) n as bs).map f := by
  induction n generalizing as bs with
  | zero => cases as <;> cases bs <;> rfl
  | succ n ih =>
    match as, bs with
    | a :: as, b :: bs =>
      rw [List.map_cons, List.map_cons, draw, draw]
      split
      · rw [← List.map_cons, ih]
        rfl
      · rw [← List.map_cons, ih]
        rfl
    | [], _ => rfl
    | _ :: _, [] => rfl

theorem mergeEnds_map (as bs : List β) : mergeEnds less (as.map f) (bs.map f) =
    (mergeEnds (fun a b => less (f a) (f b)) as bs).map (List.map f) := by
  have hback := draw_map (fun a b => less b a) f as.length bs.reverse as.reverse
  rw [mergeEnds, mergeEnds, List.length_map, draw_map, ← List.map_reverse, ← List.map_reverse,
    hback]
  simp only [Drawn.map, List.length_map]
  split
  · simp [List.map_take]
  · rfl

theorem sortSmall_map (xs : List β) : sortSmall less (xs.map f) =
    (sortSmall (fun a b => less (f a) (f b)) xs).map (List.map f) := by
  rw [sortSmall, sortSmall, List.length_map]
  split
  · rfl
  · dsimp only
    rw [← List.map_take, ← List.map_drop]
    split
    · rw [sortFromFour_map, sortFromFour_map, mergeEnds_map]
    · have hinsert := insertAll_map less f []
      rw [List.map_nil] at hinsert
      rw [hinsert, hinsert, mergeEnds_map]

/-! ## Runs -/

theorem mergeFront_map (as bs : List β) : mergeFront less (as.map f) (bs.map f) =
    (mergeFront (fun a b => less (f a) (f b)) as bs).map f := by
  induction as generalizing bs with
  | nil => rfl
  | cons a as ih =>
    rw [List.map_cons, mergeFront, mergeFront, List.takeWhile_map, List.dropWhile_map, ih,
      List.map_append, List.map_cons]
    rfl

theorem merge_map (as bs : List β) : merge less (as.map f) (bs.map f) =
    (merge (fun a b => less (f a) (f b)) as bs).map f := by
  rw [merge, merge, List.length_map, List.length_map]
  split
  · exact mergeFront_map ..
  · rw [mergeBack, mergeBack, ← List.map_reverse, ← List.map_reverse, mergeFront_map,
      List.map_reverse]

theorem climb_map (test : α → α → Bool) (last : β) (xs : List β) :
    climb test (f last) (xs.map f) = (climb (fun a b => test (f a) (f b)) last xs).map f := by
  induction xs generalizing last with
  | nil => rfl
  | cons x xs ih =>
    rw [List.map_cons, climb, climb]
    split
    · rw [ih, List.map_cons]
    · rfl

theorem leadingRun_map (xs : List β) : leadingRun less (xs.map f) =
    (leadingRun (fun a b => less (f a) (f b)) xs).map f := by
  match xs with
  | a :: b :: rest =>
    simp only [leadingRun, List.map_cons]
    split
    · rw [← List.map_cons, climb_map, ← List.map_cons, List.map_reverse]
    · rw [← List.map_cons, climb_map, ← List.map_cons]
  | [] | [_] => rfl

/-- A run, item by item. -/
def Run.map (run : Run β) : Run α := ⟨run.items.map f, run.sorted⟩

theorem nextRun_map (eager : Bool) (least : Nat) (xs : List β) :
    nextRun less eager least (xs.map f) =
      (nextRun (fun a b => less (f a) (f b)) eager least xs).map (Run.map f) := by
  rw [nextRun, nextRun, leadingRun_map, List.length_map, ← List.map_take, ← List.map_take,
    sortSmall_map]
  split
  · rfl
  · split
    · rw [Option.map_map, Option.map_map]
      rfl
    · rfl

theorem runs_map (eager : Bool) (least limit : Nat) (xs : List β) :
    runs less eager least limit (xs.map f) =
      (runs (fun a b => less (f a) (f b)) eager least limit xs).map (List.map (Run.map f)) := by
  induction limit generalizing xs with
  | zero => rfl
  | succ limit ih =>
    cases xs with
    | nil => rfl
    | cons x xs =>
      rw [List.map_cons, runs, runs, ← List.map_cons, nextRun_map]
      cases nextRun (fun a b => less (f a) (f b)) eager least (x :: xs) with
      | none => rfl
      | some run =>
        simp only [Option.map_some, Option.bind_eq_bind, Option.bind_some, Run.map,
          List.length_map, ← List.map_drop, ih]
        cases runs (fun a b => less (f a) (f b)) eager least limit
          ((x :: xs).drop run.items.length) <;> rfl

/-! ## The tree of merges -/

variable {less f}

section

variable (less) {finish : List α → Option (List α)} {finish' : List β → Option (List β)}
  (hfinish : ∀ xs, finish (xs.map f) = (finish' xs).map (List.map f))

include hfinish

theorem Run.finished_map (run : Run β) :
    (run.map f).finished finish = (run.finished finish').map (List.map f) := by
  rw [Run.finished, Run.finished, Run.map]
  split
  · rfl
  · exact hfinish run.items

theorem Run.join_map (room : Nat) (left right : Run β) :
    Run.join less finish room (left.map f) (right.map f) =
      (Run.join (fun a b => less (f a) (f b)) finish' room left right).map (Run.map f) := by
  rw [Run.join, Run.join, Run.finished_map hfinish, Run.finished_map hfinish]
  simp only [Run.map, List.length_map]
  split
  · cases left.finished finish' with
    | none => rfl
    | some as =>
      cases right.finished finish' with
      | none => rfl
      | some bs => simp [merge_map, Run.map]
  · simp [Run.map]

end

section

variable {join : Run α → Run α → Option (Run α)} {join' : Run β → Run β → Option (Run β)}
  (hjoin : ∀ left right, join (left.map f) (right.map f) = (join' left right).map (Run.map f))

include hjoin

theorem collapse_map (depth : Nat) (front : List (Nat × Run β)) (run : Run β) :
    collapse join depth (front.map (Prod.map id (Run.map f))) (run.map f) =
      (collapse join' depth front run).map
        (Prod.map (List.map (Prod.map id (Run.map f))) (Run.map f)) := by
  induction front generalizing run with
  | nil => rfl
  | cons entry front ih =>
    obtain ⟨deeper, left⟩ := entry
    rw [List.map_cons, Prod.map_apply, id_eq, collapse, collapse, hjoin]
    split
    · cases join' left run with
      | none => rfl
      | some joined => exact ih joined
    · rfl

theorem joinAll_map (scale first : Nat) (front : List (Nat × Run β)) (run : Run β)
    (rest : List (Run β)) :
    joinAll join scale first (front.map (Prod.map id (Run.map f))) (run.map f)
        (rest.map (Run.map f)) =
      (joinAll join' scale first front run rest).map (Run.map f) := by
  induction rest generalizing first front run with
  | nil =>
    rw [List.map_nil, joinAll, joinAll, collapse_map hjoin, Option.map_map, Option.map_map]
    rfl
  | cons next rest ih =>
    rw [List.map_cons, joinAll, joinAll, collapse_map hjoin]
    simp only [Run.map, List.length_map]
    cases collapse join' _ front run with
    | none => rfl
    | some collapsed => exact ih (first + run.items.length) ((_, collapsed.2) :: collapsed.1) next

end

theorem sortRuns_map (eager : Bool) (room : Nat) {finish : List α → Option (List α)}
    {finish' : List β → Option (List β)}
    (hfinish : ∀ xs, finish (xs.map f) = (finish' xs).map (List.map f)) (xs : List β) :
    sortRuns less eager room finish (xs.map f) =
      (sortRuns (fun a b => less (f a) (f b)) eager room finish' xs).map (List.map f) := by
  rw [sortRuns, sortRuns, List.length_map, runs_map]
  cases runs (fun a b => less (f a) (f b)) eager (leastRun xs.length) xs.length xs with
  | none => rfl
  | some found =>
    cases found with
    | nil => rfl
    | cons run rest =>
      have hjoined := joinAll_map (Run.join_map less hfinish room)
        (((1 <<< 62) + xs.length - 1) / xs.length) 0 [] run rest
      simp only [Option.map_some, Option.bind_eq_bind, Option.bind_some, List.map_cons]
      rw [← List.map_nil, hjoined]
      cases joinAll (Run.join (fun a b => less (f a) (f b)) finish' room) _ 0 [] run rest with
      | none => rfl
      | some whole => exact Run.finished_map hfinish whole

/-! ## Parts -/

theorem pivotPosition_map (xs : List β) : pivotPosition less (xs.map f) =
    pivotPosition (fun a b => less (f a) (f b)) xs := by
  rw [pivotPosition, pivotPosition, List.length_map]
  congr 1
  funext i j
  rw [List.getElem?_map, List.getElem?_map]
  cases xs[i]? <;> cases xs[j]? <;> rfl

namespace Pivoted

/-- A list around its pivot, item by item. -/
def map (f : β → α) (parts : Pivoted β) : Pivoted α :=
  ⟨parts.front.map f, f parts.pivot, parts.behind.map f⟩

theorem ofPosition?_map (xs : List β) (position : Nat) :
    ofPosition? (xs.map f) position = (ofPosition? xs position).map (map f) := by
  rw [ofPosition?, ofPosition?, ← List.map_drop, ← List.map_take]
  cases xs.drop position <;> rfl

theorem select_map (parts : Pivoted β) (withPivot : Bool) (test : α → Bool) :
    (parts.map f).select withPivot test =
      (parts.select withPivot fun x => test (f x)).map f := by
  rw [select, select, map, List.filter_map, List.filter_map]
  cases withPivot <;> simp [Function.comp_def]

end Pivoted

theorem sortParts_map (levels : Nat) (bound : Option β) (xs : List β) :
    sortParts less levels (bound.map f) (xs.map f) =
      (sortParts (fun a b => less (f a) (f b)) levels bound xs).map (List.map f) := by
  induction levels generalizing bound xs with
  | zero =>
    rw [sortParts, sortParts, List.length_map, sortSmall_map]
    split
    · rfl
    · exact sortRuns_map true 0 (fun _ => rfl) xs
  | succ levels ih =>
    rw [sortParts, sortParts, List.length_map, sortSmall_map, pivotPosition_map,
      Pivoted.ofPosition?_map]
    split
    · rfl
    · cases Pivoted.ofPosition? xs (pivotPosition (fun a b => less (f a) (f b)) xs) with
      | none => rfl
      | some parts =>
        have hpivot : (parts.map f).pivot = f parts.pivot := rfl
        simp only [Option.map_some, Option.bind_eq_bind, Option.bind_some, Pivoted.select_map,
          hpivot, Option.any_map, List.isEmpty_map]
        split
        · have hrest := ih none (parts.select false fun x => less (f parts.pivot) (f x))
          rw [Option.map_none] at hrest
          rw [hrest]
          cases sortParts _ levels none
              (parts.select false fun x => less (f parts.pivot) (f x)) with
          | none => rfl
          | some rest => simp
        · have hupper := ih (some parts.pivot)
            (parts.select true fun x => !less (f x) (f parts.pivot))
          rw [Option.map_some] at hupper
          rw [hupper, ih]
          cases sortParts _ levels (some parts.pivot)
              (parts.select true fun x => !less (f x) (f parts.pivot)) with
          | none => rfl
          | some upper =>
            cases sortParts _ levels bound
                (parts.select false fun x => less (f x) (f parts.pivot)) with
            | none => rfl
            | some lower => simp

/-- Sorting what a function makes of items is sorting them by what it makes of them. -/
theorem sort_map (less : α → α → Bool) (f : β → α) (xs : List β) :
    sort less (xs.map f) = (sort (fun a b => less (f a) (f b)) xs).map (List.map f) := by
  rw [sort, sort, List.length_map]
  split
  · have hinsert := insertAll_map less f [] xs
    rw [List.map_nil] at hinsert
    rw [hinsert]
    rfl
  · refine sortRuns_map _ _ (fun xs => ?_) xs
    rw [sortLater, sortLater, List.length_map]
    exact sortParts_map _ none xs

end

end Sorting

end LooseRecords
