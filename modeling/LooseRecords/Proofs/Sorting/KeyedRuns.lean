import LooseRecords.Proofs.Sorting.Keyed
import Mathlib.Data.List.TakeWhile

/-!
# Sorting by keys

Sorting by a test that compares keys has a result for every list, and it is the stable one:
`Sorting.sort_sorts`. Runs are in order or left for later, joining them keeps that, and a list that
is divided by a pivot is sorted once both parts are.
-/

namespace LooseRecords

namespace Sorting

variable {α : Type} {key : α → Int}

/-! ## Merging -/

theorem le_of_mem_dropWhile {a : α} {bs : List α} (h : Ascending key bs) :
    ∀ b ∈ bs.dropWhile (byKey key · a), key a ≤ key b := by
  induction bs with
  | nil => exact List.forall_mem_nil _
  | cons b bs ih =>
    obtain ⟨hb, hbs⟩ := ascending_cons.1 h
    rw [List.dropWhile_cons]
    split
    case isTrue => exact ih hbs
    case isFalse hless =>
      rw [byKey_iff, Int.not_lt] at hless
      exact List.forall_mem_cons.2 ⟨hless, fun c hc => Int.le_trans hless (hb c hc)⟩

theorem mergeFront_sorts {as bs : List α} (has : Ascending key as) (hbs : Ascending key bs) :
    Sorts key (as ++ bs) (mergeFront (byKey key) as bs) := by
  induction as generalizing bs with
  | nil => exact hbs.sorts
  | cons a as ih =>
    obtain ⟨ha, has'⟩ := ascending_cons.1 has
    have hlow : ∀ b ∈ bs.takeWhile (byKey key · a), key b < key a :=
      fun b hb => byKey_iff.1 (List.mem_takeWhile_imp (p := (byKey key · a)) hb)
    have hhigh := le_of_mem_dropWhile (a := a) hbs
    have hsplit := List.takeWhile_append_dropWhile (p := (byKey key · a)) (l := bs)
    rw [mergeFront]
    generalize bs.takeWhile (byKey key · a) = low at *
    generalize bs.dropWhile (byKey key · a) = high at *
    subst hsplit
    obtain ⟨hlows, hhighs, hbetween⟩ := ascending_append.1 hbs
    have hrest := ih has' hhighs
    have habove : ∀ x ∈ mergeFront (byKey key) as high, key a ≤ key x := by
      intro x hx
      obtain hx | hx := List.mem_append.1 (hrest.ties.mem_iff.1 hx)
      · exact ha x hx
      · exact hhigh x hx
    constructor
    · refine ascending_append.2 ⟨hlows, ascending_cons.2 ⟨habove, hrest.ascending⟩, ?_⟩
      intro b hb x hx
      have hlt := hlow b hb
      obtain rfl | hx := List.mem_cons.1 hx
      · exact Int.le_of_lt hlt
      · exact Int.le_trans (Int.le_of_lt hlt) (habove x hx)
    · have hmove : Ties key (low ++ a :: as) (a :: as ++ low) := by
        refine .exchange fun b hb x hx => ?_
        have hlt := hlow b hb
        obtain rfl | hx := List.mem_cons.1 hx
        · exact Int.ne_of_lt hlt
        · exact Int.ne_of_lt (Int.lt_of_lt_of_le hlt (ha x hx))
      have hmoved := hmove.append (.refl high)
      simp only [List.append_assoc, List.cons_append] at hmoved
      exact ((Ties.refl low).append (hrest.ties.cons a)).trans hmoved

theorem merge_sorts {as bs : List α} (has : Ascending key as) (hbs : Ascending key bs) :
    Sorts key (as ++ bs) (merge (byKey key) as bs) := by
  rw [merge]
  split
  · exact mergeFront_sorts has hbs
  · rw [mergeBack, byKey_swap]
    refine Sorts.reverse ?_
    rw [List.reverse_append]
    exact mergeFront_sorts hbs.reverse has.reverse

/-! ## Runs -/

/-- If passing the test is a transitive relation, it holds between any two items of a climb. -/
theorem climb_pairwise {test : α → α → Bool} {R : α → α → Prop}
    (htrans : ∀ {a b c}, R a b → R b c → R a c) (htest : ∀ {a b}, test a b = true → R a b)
    (last : α) (xs : List α) : (last :: climb test last xs).Pairwise R := by
  induction xs generalizing last with
  | nil => exact List.pairwise_singleton ..
  | cons x xs ih =>
    rw [climb]
    split
    case isTrue hx =>
      refine List.pairwise_cons.2 ⟨fun y hy => ?_, ih x⟩
      obtain rfl | hy := List.mem_cons.1 hy
      · exact htest hx
      · exact htrans (htest hx) ((List.pairwise_cons.1 (ih x)).1 y hy)
    case isFalse => exact List.pairwise_singleton ..

/-- Items with falling keys, read from the end. -/
theorem sorts_reverse_of_falling {xs : List α} (h : xs.Pairwise fun a b => key b < key a) :
    Sorts key xs xs.reverse := by
  refine ⟨List.pairwise_reverse.2 (h.imp Int.le_of_lt), ?_⟩
  induction xs with
  | nil => exact .refl _
  | cons x xs ih =>
    obtain ⟨hx, hxs⟩ := List.pairwise_cons.1 h
    have hmove : Ties key (xs.reverse ++ [x]) ([x] ++ xs.reverse) := by
      refine .exchange fun y hy z hz => ?_
      obtain rfl := List.mem_singleton.1 hz
      exact Int.ne_of_lt (hx y (List.mem_reverse.1 hy))
    rw [List.reverse_cons]
    exact hmove.trans ((ih hxs).cons x)

theorem leadingRun_sorts (key : α → Int) (xs : List α) :
    Sorts key (xs.take (leadingRun (byKey key) xs).length) (leadingRun (byKey key) xs) := by
  rw [leadingRun.eq_def]
  split
  case h_1 a b rest =>
    split
    · rw [List.length_reverse, take_length_climb]
      refine sorts_reverse_of_falling (climb_pairwise ?_ byKey_iff.1 a _)
      exact fun hab hbc => Int.lt_trans hbc hab
    · rw [take_length_climb]
      refine Ascending.sorts ?_
      refine climb_pairwise (R := fun x y => key x ≤ key y) Int.le_trans ?_ a _
      intro x y htest
      simpa [byKey] using htest
  case h_2 hfew =>
    rw [List.take_length]
    refine (ascending_of_length (Nat.le_of_not_lt fun hmany => ?_)).sorts
    obtain ⟨a, rest, rfl⟩ := List.exists_cons_of_length_pos (Nat.lt_trans Nat.one_pos hmany)
    obtain ⟨b, rest, rfl⟩ := List.exists_cons_of_length_pos (Nat.lt_of_succ_lt_succ hmany)
    exact hfew a b rest rfl

/-- A run that is sorted has rising keys, and eager sorting leaves none unsorted. -/
structure Run.Valid (key : α → Int) (eager : Bool) (run : Run α) : Prop where
  ascending : run.sorted = true → Ascending key run.items
  sorted : eager = true → run.sorted = true

theorem nextRun_valid (key : α → Int) (eager : Bool) (least : Nat) (xs : List α) :
    ∃ run, nextRun (byKey key) eager least xs = some run ∧ run.Valid key eager ∧
      Ties key run.items (xs.take run.items.length) := by
  have hfound := leadingRun_sorts key xs
  rw [nextRun]
  split
  case isTrue => exact ⟨_, rfl, ⟨fun _ => hfound.ascending, fun _ => rfl⟩, hfound.ties⟩
  case isFalse =>
    split
    case isTrue =>
      obtain ⟨out, hout, hsorts⟩ := sortSmall_sorts key (xs.take 32)
      rw [hout]
      refine ⟨_, rfl, ⟨fun _ => hsorts.ascending, fun _ => rfl⟩, ?_⟩
      show Ties key out (xs.take out.length)
      rw [(sortSmall_perm hout).length_eq, List.length_take, ← List.take_eq_take_min]
      exact hsorts.ties
    case isFalse heager =>
      refine ⟨_, rfl, ⟨Bool.false_ne_true.elim, fun h => absurd h heager⟩, ?_⟩
      show Ties key (xs.take least) (xs.take (xs.take least).length)
      rw [List.length_take, ← List.take_eq_take_min]
      exact .refl _

theorem runs_valid (eager : Bool) {least : Nat} (hleast : 0 < least) {limit : Nat} {xs : List α}
    (hlimit : xs.length ≤ limit) :
    ∃ found, runs (byKey key) eager least limit xs = some found ∧
      (∀ run ∈ found, run.Valid key eager) ∧ Ties key (found.flatMap Run.items) xs := by
  induction limit generalizing xs with
  | zero =>
    obtain rfl := List.length_eq_zero_iff.1 (Nat.le_zero.1 hlimit)
    exact ⟨[], rfl, List.forall_mem_nil _, .refl _⟩
  | succ limit ih =>
    cases xs with
    | nil => exact ⟨[], rfl, List.forall_mem_nil _, .refl _⟩
    | cons x xs =>
      obtain ⟨run, hrun, hvalid, hties⟩ := nextRun_valid key eager least (x :: xs)
      have hpos := nextRun_pos hleast (List.cons_ne_nil x xs) hrun
      have hshorter : ((x :: xs).drop run.items.length).length ≤ limit := by
        rw [List.length_drop]
        omega
      obtain ⟨rest, hrest, hvalids, hties'⟩ := ih hshorter
      refine ⟨run :: rest, ?_, List.forall_mem_cons.2 ⟨hvalid, hvalids⟩, ?_⟩
      · simp [runs, hrun, hrest]
      · have hitems := hties.append hties'
        rwa [List.take_append_drop] at hitems

/-! ## The tree of merges -/

section

variable {eager : Bool} {finish : List α → Option (List α)}
  (hfinish : eager = false → ∀ xs, ∃ out, finish xs = some out ∧ Sorts key xs out)

include hfinish

theorem Run.finished_sorts {run : Run α} (h : run.Valid key eager) :
    ∃ out, run.finished finish = some out ∧ Sorts key run.items out := by
  rw [Run.finished]
  split
  case isTrue hsorted => exact ⟨_, rfl, (h.ascending hsorted).sorts⟩
  case isFalse hsorted =>
    have hlater : eager = false := by
      cases eager with
      | false => rfl
      | true => exact absurd (h.sorted rfl) hsorted
    exact hfinish hlater run.items

theorem Run.join_valid (room : Nat) {left right : Run α} (hleft : left.Valid key eager)
    (hright : right.Valid key eager) :
    ∃ run, Run.join (byKey key) finish room left right = some run ∧ run.Valid key eager ∧
      Ties key run.items (left.items ++ right.items) := by
  rw [Run.join]
  split
  case isTrue =>
    obtain ⟨as, has, hsorts⟩ := Run.finished_sorts hfinish hleft
    obtain ⟨bs, hbs, hsorts'⟩ := Run.finished_sorts hfinish hright
    have hmerged := merge_sorts hsorts.ascending hsorts'.ascending
    rw [has, hbs]
    exact ⟨_, rfl, ⟨fun _ => hmerged.ascending, fun _ => rfl⟩,
      hmerged.ties.trans (hsorts.ties.append hsorts'.ties)⟩
  case isFalse hnone =>
    have hunsorted : left.sorted ≠ true := by
      intro hsorted
      simp [hsorted] at hnone
    exact ⟨_, rfl, ⟨Bool.false_ne_true.elim, fun h => absurd (hleft.sorted h) hunsorted⟩, .refl _⟩

end

section

variable {join : Run α → Run α → Option (Run α)} {valid : Run α → Prop}
  (hjoin : ∀ {left right}, valid left → valid right →
    ∃ run, join left right = some run ∧ valid run ∧
      Ties key run.items (left.items ++ right.items))

include hjoin

theorem collapse_valid (depth : Nat) {front : List (Nat × Run α)} {run : Run α}
    (hfront : ∀ entry ∈ front, valid entry.2) (hrun : valid run) :
    ∃ front' run', collapse join depth front run = some (front', run') ∧
      (∀ entry ∈ front', valid entry.2) ∧ valid run' ∧
      Ties key (frontItems front' ++ run'.items) (frontItems front ++ run.items) := by
  induction front generalizing run with
  | nil => exact ⟨[], run, rfl, hfront, hrun, .refl _⟩
  | cons entry front ih =>
    obtain ⟨deeper, left⟩ := entry
    obtain ⟨hleft, hfront'⟩ := List.forall_mem_cons.1 hfront
    rw [collapse]
    split
    case isTrue =>
      obtain ⟨joined, hjoined, hvalid, hties⟩ := hjoin hleft hrun
      obtain ⟨front', run', hcollapsed, hfronts, hrun', hties'⟩ := ih hfront' hvalid
      refine ⟨front', run', ?_, hfronts, hrun', hties'.trans ?_⟩
      · rw [hjoined]
        exact hcollapsed
      · rw [frontItems, List.append_assoc]
        exact (Ties.refl _).append hties
    case isFalse => exact ⟨_, _, rfl, hfront, hrun, .refl _⟩

theorem joinAll_valid (scale first : Nat) {front : List (Nat × Run α)} {run : Run α}
    {rest : List (Run α)} (hfront : ∀ entry ∈ front, valid entry.2) (hrun : valid run)
    (hrest : ∀ run ∈ rest, valid run) :
    ∃ whole, joinAll join scale first front run rest = some whole ∧ valid whole ∧
      Ties key whole.items (frontItems front ++ run.items ++ rest.flatMap Run.items) := by
  induction rest generalizing first front run with
  | nil =>
    obtain ⟨front', run', hcollapsed, -, hrun', hties⟩ := collapse_valid hjoin 0 hfront hrun
    refine ⟨run', ?_, hrun', ?_⟩
    · rw [joinAll, hcollapsed]
      rfl
    · rw [collapse_zero hcollapsed, frontItems, List.nil_append] at hties
      rwa [List.flatMap_nil, List.append_nil]
  | cons next rest ih =>
    obtain ⟨hnext, hrest'⟩ := List.forall_mem_cons.1 hrest
    rw [joinAll]
    obtain ⟨front', run', hcollapsed, hfront', hrun', hties⟩ := collapse_valid hjoin
      (meetingDepth scale first (first + run.items.length)
        (first + run.items.length + next.items.length)) hfront hrun
    rw [hcollapsed]
    obtain ⟨whole, hwhole, hvalid, hties'⟩ := ih (first + run.items.length)
      (List.forall_mem_cons (a := (_, run')).2 ⟨hrun', hfront'⟩) hnext hrest'
    refine ⟨whole, hwhole, hvalid, hties'.trans ?_⟩
    have hitems := hties.append (.refl (next.items ++ rest.flatMap Run.items))
    rwa [List.flatMap_cons, ← List.append_assoc, ← List.append_assoc] at *

end

theorem sortRuns_sorts {eager : Bool} (room : Nat) {finish : List α → Option (List α)}
    (hfinish : eager = false → ∀ xs, ∃ out, finish xs = some out ∧ Sorts key xs out)
    (xs : List α) :
    ∃ out, sortRuns (byKey key) eager room finish xs = some out ∧ Sorts key xs out := by
  have hruns : ∃ found, runs (byKey key) eager (leastRun xs.length) xs.length xs = some found ∧
      (∀ run ∈ found, run.Valid key eager) ∧ Ties key (found.flatMap Run.items) xs := by
    cases xs with
    | nil => exact ⟨[], rfl, List.forall_mem_nil _, .refl _⟩
    | cons x xs => exact runs_valid eager (leastRun_pos (Nat.succ_pos _)) (Nat.le_refl _)
  obtain ⟨found, hfound, hvalid, hties⟩ := hruns
  rw [sortRuns, hfound]
  cases found with
  | nil => exact ⟨[], rfl, .nil, hties⟩
  | cons run rest =>
    obtain ⟨hrun, hrest⟩ := List.forall_mem_cons.1 hvalid
    obtain ⟨whole, hwhole, hwholes, hjoined⟩ := joinAll_valid (Run.join_valid hfinish room)
      (((1 <<< 62) + xs.length - 1) / xs.length) 0 (List.forall_mem_nil _) hrun hrest
    obtain ⟨out, hout, hsorts⟩ := Run.finished_sorts hfinish hwholes
    refine ⟨out, ?_, hsorts.ascending, (hsorts.ties.trans hjoined).trans hties⟩
    simp only [Option.bind_eq_bind, Option.bind_some, hwhole, hout]

/-! ## Parts -/

theorem median_mem (below : Nat → Nat → Bool) (a b c : Nat) : median below a b c ∈ [a, b, c] := by
  rw [median]
  split
  · split <;> simp
  · simp

/-- A position that stands for three stretches lies in one of them. -/
theorem pseudoMedian_lt (below : Nat → Nat → Bool) {n a b c length : Nat} (hn : 0 < n)
    (ha : a + n ≤ length) (hb : b + n ≤ length) (hc : c + n ≤ length) :
    pseudoMedian below n a b c < length := by
  have hmedian : ∀ {a b c : Nat}, a < length → b < length → c < length →
      median below a b c < length := by
    intro a b c ha hb hc
    have hmem := median_mem below a b c
    simp only [List.mem_cons, List.not_mem_nil, or_false] at hmem
    obtain h | h | h := hmem <;> rw [h] <;> assumption
  induction n, a, b, c using pseudoMedian.induct with
  | case1 n a b c h k _ iha ihb ihc =>
    rw [pseudoMedian, dif_pos h]
    exact hmedian (iha (by omega) (by omega) (by omega) (by omega))
      (ihb (by omega) (by omega) (by omega) (by omega))
      (ihc (by omega) (by omega) (by omega) (by omega))
  | case2 n a b c h =>
    rw [pseudoMedian, dif_neg h]
    exact hmedian (by omega) (by omega) (by omega)

/-- A list of more than a few items has a pivot, whatever the test is. -/
theorem exists_pivot (less : α → α → Bool) {xs : List α} (h : 8 ≤ xs.length) :
    ∃ parts, Pivoted.ofPosition? xs (pivotPosition less xs) = some parts := by
  have hposition : pivotPosition less xs < xs.length :=
    pseudoMedian_lt _ (by omega) (by omega) (by omega) (by omega)
  rw [Pivoted.ofPosition?]
  split
  case h_1 => exact ⟨_, rfl⟩
  case h_2 hnone =>
    have := congrArg List.length hnone
    rw [List.length_drop, List.length_nil] at this
    omega

/-- Where the pivot answers a test as it is put, the items are chosen by the test alone. -/
theorem Pivoted.select_eq_filter {parts : Pivoted α} {withPivot : Bool} {test : α → Bool}
    (h : test parts.pivot = withPivot) : parts.select withPivot test =
      (parts.front ++ parts.pivot :: parts.behind).filter test := by
  rw [select, List.filter_append, List.filter_cons, h]
  cases withPivot <;> simp

/-- Items in front of which the others belong, once both are sorted. -/
theorem sorts_parts {xs lower upper : List α} {test : α → Bool}
    (hbetween : ∀ x ∈ xs, ∀ y ∈ xs, test x = true → test y = false → key x < key y)
    (hlower : Sorts key (xs.filter test) lower) (hupper : Sorts key (xs.filter (!test ·)) upper) :
    Sorts key xs (lower ++ upper) := by
  constructor
  · refine ascending_append.2 ⟨hlower.ascending, hupper.ascending, fun x hx y hy => ?_⟩
    obtain ⟨hx, htest⟩ := List.mem_filter.1 (hlower.ties.mem_iff.1 hx)
    obtain ⟨hy, htest'⟩ := List.mem_filter.1 (hupper.ties.mem_iff.1 hy)
    exact Int.le_of_lt (hbetween x hx y hy htest (by simpa using htest'))
  · refine (hlower.ties.append hupper.ties).trans (.partition fun x hx y hy htest htest' => ?_)
    exact Int.ne_of_lt (hbetween x hx y hy htest htest')

/-- What is less than the pivot, then what is not. -/
theorem sorts_around {pivot : α} {xs lower upper : List α}
    (hlower : Sorts key (xs.filter (byKey key · pivot)) lower)
    (hupper : Sorts key (xs.filter (!byKey key · pivot)) upper) :
    Sorts key xs (lower ++ upper) := by
  refine sorts_parts (fun x _ y _ hx hy => ?_) hlower hupper
  simp only [byKey, decide_eq_true_eq, decide_eq_false_iff_not] at hx hy
  omega

/-- If nothing is less than the pivot, what is not greater has its key and stays as it stands. -/
theorem sorts_above {pivot : α} {xs upper : List α} (hleast : ∀ x ∈ xs, key pivot ≤ key x)
    (hupper : Sorts key (xs.filter (byKey key pivot ·)) upper) :
    Sorts key xs (xs.filter (!byKey key pivot ·) ++ upper) := by
  have hequal : Ascending key (xs.filter (!byKey key pivot ·)) := by
    refine List.pairwise_of_forall_mem_list fun x hx y hy => ?_
    obtain ⟨-, hx⟩ := List.mem_filter.1 hx
    have hy := hleast y (List.mem_filter.1 hy).1
    simp only [byKey, Bool.not_eq_true', decide_eq_false_iff_not] at hx
    omega
  refine sorts_parts (fun x _ y _ hx hy => ?_) hequal.sorts (by simpa using hupper)
  simp only [byKey, Bool.not_eq_true', Bool.not_eq_false', decide_eq_true_eq,
    decide_eq_false_iff_not] at hx hy
  omega

theorem sortParts_sorts (levels : Nat) {bound : Option α} {xs : List α}
    (hbound : ∀ b ∈ bound, ∀ x ∈ xs, key b ≤ key x) :
    ∃ out, sortParts (byKey key) levels bound xs = some out ∧ Sorts key xs out := by
  induction levels generalizing bound xs with
  | zero =>
    rw [sortParts]
    split
    · exact sortSmall_sorts key xs
    · exact sortRuns_sorts 0 (fun h => absurd h (by decide)) xs
  | succ levels ih =>
    rw [sortParts]
    split
    case isTrue => exact sortSmall_sorts key xs
    case isFalse hmany =>
      obtain ⟨parts, hparts⟩ := exists_pivot (byKey key) (show 8 ≤ xs.length by omega)
      have hxs := Pivoted.eq_of_ofPosition? hparts
      generalize hpivot : parts.pivot = pivot at hxs
      have hselect : ∀ {test : α → Bool} {withPivot : Bool}, test pivot = withPivot →
          parts.select withPivot test = xs.filter test := by
        intro test withPivot h
        rw [Pivoted.select_eq_filter (hpivot ▸ h), hpivot, ← hxs]
      have hself : byKey key pivot pivot = false := by simp [byKey]
      have hless : parts.select false (byKey key · pivot) = _ := hselect hself
      have hgreater : parts.select false (byKey key pivot ·) = _ := hselect hself
      have hnotless : parts.select true (!byKey key · pivot) = _ := hselect (by simp [hself])
      have hnotgreater : parts.select true (!byKey key pivot ·) = _ := hselect (by simp [hself])
      rw [hparts]
      simp only [Option.bind_eq_bind, Option.bind_some, hpivot, hless, hgreater, hnotless,
        hnotgreater]
      split
      case isTrue hfound =>
        have hleast : ∀ x ∈ xs, key pivot ≤ key x := by
          intro x hx
          obtain hfound | hfound := Bool.or_eq_true_iff.1 hfound
          · obtain ⟨b, hb, hle⟩ := (Option.any_eq_true ..).1 hfound
            simp only [byKey, Bool.not_eq_true', decide_eq_false_iff_not] at hle
            exact Int.le_trans (by omega) (hbound b hb x hx)
          · have hnone := List.filter_eq_nil_iff.1 (List.isEmpty_iff.1 hfound) x hx
            rw [byKey_iff] at hnone
            omega
        obtain ⟨rest, hrest, hsorts⟩ := @ih none (xs.filter (byKey key pivot ·)) (by simp)
        rw [hrest]
        exact ⟨_, rfl, sorts_above hleast hsorts⟩
      case isFalse =>
        obtain ⟨upper, hupper, hsorts⟩ := @ih (some pivot) (xs.filter (!byKey key · pivot))
          (by simp [byKey])
        obtain ⟨lower, hlower, hsorts'⟩ := @ih bound (xs.filter (byKey key · pivot))
          fun b hb x hx => hbound b hb x (List.mem_filter.1 hx).1
        rw [hupper, hlower]
        exact ⟨_, rfl, sorts_around hsorts' hsorts⟩

/-- Sorting by keys has a result for every list: the items with rising keys, and those with one key
as they stood. -/
theorem sort_sorts (key : α → Int) (xs : List α) :
    ∃ out, sort (byKey key) xs = some out ∧ Sorts key xs out := by
  rw [sort]
  split
  · exact ⟨_, rfl, insertAll_sorts .nil xs⟩
  · exact sortRuns_sorts _ (fun _ xs => sortParts_sorts _ (by simp)) xs

end Sorting

end LooseRecords
