import LooseRecords.Sorting.Drift
import Mathlib.Data.List.Perm.Basic

/-!
# Sorting keeps the items

Whatever the test is, a sorting that has a result returns the items that it was given, in some
order: `Sorting.sort_perm`.
-/

namespace LooseRecords

namespace Sorting

variable {α : Type} {less : α → α → Bool}

/-! ## A few items -/

section

variable (less)

theorem insertBehind_perm (x : α) (ys : List α) : (insertBehind less x ys).Perm (x :: ys) := by
  induction ys with
  | nil => exact .refl _
  | cons y ys ih =>
    rw [insertBehind]
    split
    · exact (ih.cons y).trans (.swap ..)
    · exact .refl _

theorem foldl_insertBehind_perm (more done : List α) :
    (more.foldl (fun done x => insertBehind less x done) done).Perm (more ++ done) := by
  induction more generalizing done with
  | nil => exact .refl _
  | cons x more ih =>
    have hinserted := (insertBehind_perm less x done).append_left more
    exact ((ih _).trans hinserted).trans List.perm_middle

theorem insertAll_perm (sorted more : List α) :
    (insertAll less sorted more).Perm (sorted ++ more) := by
  have hall := foldl_insertBehind_perm less more sorted.reverse
  have hsorted := (sorted.reverse_perm.append_left more).trans List.perm_append_comm
  exact ((List.reverse_perm _).trans hall).trans hsorted

theorem sortTwo_perm (a b : α) : [(sortTwo less a b).1, (sortTwo less a b).2].Perm [a, b] := by
  rw [sortTwo]
  split
  · exact .swap ..
  · exact .refl _

theorem sortFour_perm (a b c d : α) : (sortFour less a b c d).Perm [a, b, c, d] := by
  have hab := sortTwo_perm less a b
  have hcd := sortTwo_perm less c d
  rw [sortFour]
  generalize sortTwo less a b = low at hab ⊢
  generalize sortTwo less c d = high at hcd ⊢
  obtain ⟨a', b'⟩ := low
  obtain ⟨c', d'⟩ := high
  refine List.Perm.trans ?_ (hab.append hcd)
  -- Between the ends two items are put in order, whatever the ends are.
  have hends : ∀ first left right last : α,
      [first, (sortTwo less left right).1, (sortTwo less left right).2, last].Perm
        [first, left, right, last] :=
    fun first left right last => ((sortTwo_perm less left right).append_right [last]).cons first
  classical
  dsimp only
  split
  · exact hends ..
  all_goals
    refine (hends ..).trans (List.perm_iff_count.2 fun x => ?_)
    simp only [List.cons_append, List.nil_append, List.count_cons, List.count_nil]
    omega

theorem sortFromFour_perm (xs : List α) : (sortFromFour less xs).Perm xs := by
  rw [sortFromFour.eq_def]
  split
  case h_1 a b c d rest =>
    exact (insertAll_perm less _ _).trans ((sortFour_perm less a b c d).append_right rest)
  case h_2 => exact insertAll_perm less [] xs

/-- What is drawn are items from the front of both lists. -/
theorem draw_perm (n : Nat) (as bs : List α) :
    ∃ left right, as = left ++ (draw less n as bs).left ∧
      bs = right ++ (draw less n as bs).right ∧
      (draw less n as bs).taken.Perm (left ++ right) := by
  induction n, as, bs using draw.induct less with
  | case1 n a as b bs hless ih =>
    obtain ⟨left, right, hleft, hright, htaken⟩ := ih
    rw [draw, if_pos hless]
    refine ⟨left, b :: right, hleft, congrArg (b :: ·) hright, ?_⟩
    exact (htaken.cons b).trans List.perm_middle.symm
  | case2 n a as b bs hless ih =>
    obtain ⟨left, right, hleft, hright, htaken⟩ := ih
    rw [draw, if_neg hless]
    exact ⟨a :: left, right, congrArg (a :: ·) hleft, hright, htaken.cons a⟩
  | case3 n as bs h =>
    have hnone : draw less n as bs = ⟨[], as, bs⟩ := by
      rw [draw.eq_def]
      split
      case h_1 n a as b bs => exact (h n a as b bs rfl rfl rfl).elim
      case h_2 => rfl
    rw [hnone]
    exact ⟨[], [], rfl, rfl, .refl _⟩

end

section

variable {front rest back rest' xs : List α}

/-- A list that is drawn from at both ends, once more from its front. -/
theorem append_of_reverse (hfront : xs = front ++ rest) (hback : xs.reverse = back ++ rest') :
    front ++ rest = rest'.reverse ++ back.reverse := by
  rw [← hfront, ← List.reverse_append, ← hback, List.reverse_reverse]

/-- The list has a part between what is drawn from it if no item is drawn twice. -/
theorem eq_append_middle (hfront : xs = front ++ rest) (hback : xs.reverse = back ++ rest')
    (h : xs.length ≤ rest.length + rest'.length) :
    xs = front ++ rest.take (rest.length + rest'.length - xs.length) ++ back.reverse := by
  have hlength := congrArg List.length hfront
  have hlength' := congrArg List.length hback
  obtain ⟨middle, hrest', hrest⟩ | ⟨middle, hfront', hback'⟩ :=
    List.append_eq_append_iff.1 (append_of_reverse hfront hback)
  · have hcount := congrArg List.length hrest'
    simp only [List.length_append, List.length_reverse] at hlength hlength' hcount
    have htake : rest.length + rest'.length - xs.length = middle.length := by omega
    rw [htake, hrest, List.take_left' rfl, hfront, hrest, List.append_assoc]
  · have hcount := congrArg List.length hfront'
    simp only [List.length_append, List.length_reverse] at hlength hlength' hcount
    obtain rfl := List.length_eq_zero_iff.1 (show middle.length = 0 by omega)
    have htake : rest.length + rest'.length - xs.length = 0 := by omega
    rw [htake, List.take_zero, List.append_nil, hfront, hback', List.nil_append]

end

theorem mergeEnds_perm {as bs out : List α} (h : mergeEnds less as bs = some out) :
    out.Perm (as ++ bs) := by
  obtain ⟨left, right, hleft, hright, htaken⟩ := draw_perm less as.length as bs
  obtain ⟨right', left', hright', hleft', htaken'⟩ :=
    draw_perm (fun a b => less b a) as.length bs.reverse as.reverse
  rw [mergeEnds] at h
  split at h
  case isFalse => cases h
  case isTrue hcounts =>
    obtain rfl := Option.some.inj h
    have has := eq_append_middle hleft hleft' hcounts.1
    have hbs := eq_append_middle hright hright' hcounts.2
    have htaken'' := (List.reverse_perm _).trans htaken'
    classical
    rw [List.perm_iff_count] at htaken htaken'' ⊢
    intro x
    have hcount := congrArg (List.count x) has
    have hcount' := congrArg (List.count x) hbs
    have hfront := htaken x
    have hback := htaken'' x
    simp only [List.count_append, List.count_reverse] at hcount hcount' hfront hback ⊢
    omega

theorem sortSmall_perm {xs out : List α} (h : sortSmall less xs = some out) : out.Perm xs := by
  rw [sortSmall] at h
  split at h
  case isTrue =>
    obtain rfl := Option.some.inj h
    exact .refl _
  case isFalse =>
    have hhalf : ∀ half, (if 8 ≤ xs.length then sortFromFour less else insertAll less []) half
        |>.Perm half := by
      intro half
      split
      · exact sortFromFour_perm less half
      · exact insertAll_perm less [] half
    have hmerged := (mergeEnds_perm h).trans ((hhalf _).append (hhalf _))
    rwa [List.take_append_drop] at hmerged

/-! ## Runs -/

section

variable (less)

theorem mergeFront_perm (as bs : List α) : (mergeFront less as bs).Perm (as ++ bs) := by
  induction as generalizing bs with
  | nil => exact .refl _
  | cons a as ih =>
    rw [mergeFront]
    have hlow := List.perm_append_comm_assoc (bs.takeWhile (less · a)) (a :: as)
      (bs.dropWhile (less · a))
    rw [List.takeWhile_append_dropWhile] at hlow
    exact (((ih _).cons a).append_left _).trans hlow

theorem merge_perm (as bs : List α) : (merge less as bs).Perm (as ++ bs) := by
  rw [merge]
  split
  · exact mergeFront_perm less as bs
  · have hback := mergeFront_perm (fun a b => less b a) bs.reverse as.reverse
    rw [← List.reverse_append] at hback
    exact ((List.reverse_perm _).trans hback).trans (List.reverse_perm _)

theorem climb_isFront (test : α → α → Bool) (last : α) (xs : List α) :
    climb test last xs <+: xs := by
  induction xs generalizing last with
  | nil => exact List.prefix_refl _
  | cons x xs ih =>
    rw [climb]
    split
    · exact (List.prefix_cons_inj x).2 (ih x)
    · exact List.nil_prefix

variable {less} in
theorem take_length_climb (test : α → α → Bool) (a : α) (xs : List α) :
    (a :: xs).take (a :: climb test a xs).length = a :: climb test a xs :=
  (List.prefix_iff_eq_take.1 ((List.prefix_cons_inj a).2 (climb_isFront ..))).symm

theorem leadingRun_perm (xs : List α) :
    (leadingRun less xs).Perm (xs.take (leadingRun less xs).length) := by
  rw [leadingRun.eq_def]
  split
  case h_1 =>
    split
    · rw [List.length_reverse, take_length_climb]
      exact List.reverse_perm _
    · rw [take_length_climb]
  case h_2 => rw [List.take_length]

end

/-- A run has the items at the front. -/
theorem nextRun_perm {eager : Bool} {least : Nat} {xs : List α} {run : Run α}
    (h : nextRun less eager least xs = some run) :
    run.items.Perm (xs.take run.items.length) := by
  have htake : ∀ (items : List α) (n : Nat), items.Perm (xs.take n) →
      items.Perm (xs.take items.length) := by
    intro items n hperm
    rwa [hperm.length_eq, List.length_take, List.take_eq_take_min.symm]
  rw [nextRun] at h
  split at h
  case isTrue =>
    obtain rfl := Option.some.inj h
    exact leadingRun_perm less xs
  case isFalse =>
    split at h
    case isTrue =>
      obtain ⟨sorted, hsorted, rfl⟩ := Option.map_eq_some_iff.1 h
      exact htake _ 32 (sortSmall_perm hsorted)
    case isFalse =>
      obtain rfl := Option.some.inj h
      exact htake _ least (.refl _)

theorem nextRun_pos {eager : Bool} {least : Nat} (hleast : 0 < least) {xs : List α} {run : Run α}
    (hxs : xs ≠ []) (h : nextRun less eager least xs = some run) : 0 < run.items.length := by
  have hpos := List.length_pos_iff.2 hxs
  rw [nextRun] at h
  split at h
  case isTrue hfound =>
    obtain rfl := Option.some.inj h
    exact Nat.lt_of_lt_of_le hleast hfound
  case isFalse =>
    split at h
    case isTrue =>
      obtain ⟨sorted, hsorted, rfl⟩ := Option.map_eq_some_iff.1 h
      have hlength := (sortSmall_perm hsorted).length_eq
      rw [List.length_take] at hlength
      show 0 < sorted.length
      omega
    case isFalse =>
      obtain rfl := Option.some.inj h
      show 0 < (xs.take least).length
      rw [List.length_take]
      omega

/-- The runs have all items, if there may be as many runs as items. -/
theorem runs_perm {eager : Bool} {least : Nat} (hleast : 0 < least) {limit : Nat} {xs : List α}
    {found : List (Run α)} (hlimit : xs.length ≤ limit)
    (h : runs less eager least limit xs = some found) : (found.flatMap Run.items).Perm xs := by
  induction limit generalizing xs found with
  | zero =>
    obtain rfl := List.length_eq_zero_iff.1 (Nat.le_zero.1 hlimit)
    obtain rfl := Option.some.inj h
    exact .refl _
  | succ limit ih =>
    cases xs with
    | nil =>
      obtain rfl := Option.some.inj h
      exact .refl _
    | cons x xs =>
      rw [runs] at h
      obtain ⟨run, hrun, h⟩ := Option.bind_eq_some_iff.1 h
      obtain ⟨rest, hrest, h⟩ := Option.bind_eq_some_iff.1 h
      obtain rfl := Option.some.inj h
      have hpos := nextRun_pos hleast (List.cons_ne_nil x xs) hrun
      have hshorter : ((x :: xs).drop run.items.length).length ≤ limit := by
        rw [List.length_drop]
        omega
      have hitems := (nextRun_perm hrun).append (ih hshorter hrest)
      rwa [List.take_append_drop] at hitems

theorem leastRun_pos {n : Nat} (h : 0 < n) : 0 < leastRun n := by
  rw [leastRun]
  split
  · omega
  · have hlog : 1 ≤ n.log2 := (Nat.le_log2 (by omega)).2 (by omega)
    have hshift : 2 ^ 1 ≤ 2 ^ ((1 + n.log2) / 2) := Nat.pow_le_pow_right (by decide) (by omega)
    show 0 < ((1 <<< ((1 + n.log2) / 2)) + (n >>> ((1 + n.log2) / 2))) / 2
    rw [Nat.one_shiftLeft]
    exact Nat.div_pos (Nat.le_add_right_of_le hshift) (by decide)

/-! ## The tree of merges -/

section

variable {finish : List α → Option (List α)}
  (hfinish : ∀ {xs out}, finish xs = some out → out.Perm xs)

include hfinish

theorem Run.finished_perm {run : Run α} {out : List α} (h : run.finished finish = some out) :
    out.Perm run.items := by
  rw [Run.finished] at h
  split at h
  · obtain rfl := Option.some.inj h
    exact .refl _
  · exact hfinish h

theorem Run.join_perm {room : Nat} {left right run : Run α}
    (h : Run.join less finish room left right = some run) :
    run.items.Perm (left.items ++ right.items) := by
  rw [Run.join] at h
  split at h
  · obtain ⟨as, has, h⟩ := Option.bind_eq_some_iff.1 h
    obtain ⟨bs, hbs, h⟩ := Option.bind_eq_some_iff.1 h
    obtain rfl := Option.some.inj h
    exact (merge_perm less as bs).trans
      ((Run.finished_perm hfinish has).append (Run.finished_perm hfinish hbs))
  · obtain rfl := Option.some.inj h
    exact .refl _

end

/-- The items of the runs in front, of which the nearest stands first. -/
def frontItems : List (Nat × Run α) → List α
  | [] => []
  | (_, run) :: front => frontItems front ++ run.items

section

variable {join : Run α → Run α → Option (Run α)}
  (hjoin : ∀ {left right run}, join left right = some run →
    run.items.Perm (left.items ++ right.items))

include hjoin

theorem collapse_perm {depth : Nat} {front front' : List (Nat × Run α)} {run run' : Run α}
    (h : collapse join depth front run = some (front', run')) :
    (frontItems front' ++ run'.items).Perm (frontItems front ++ run.items) := by
  induction front generalizing run with
  | nil =>
    obtain ⟨rfl, rfl⟩ := Prod.mk.inj (Option.some.inj h)
    exact .refl _
  | cons entry front ih =>
    obtain ⟨deeper, left⟩ := entry
    rw [collapse] at h
    split at h
    case isTrue =>
      obtain ⟨joined, hjoined, h⟩ := Option.bind_eq_some_iff.1 h
      refine (ih h).trans ?_
      rw [frontItems, List.append_assoc]
      exact (hjoin hjoined).append_left _
    case isFalse =>
      obtain ⟨rfl, rfl⟩ := Prod.mk.inj (Option.some.inj h)
      exact .refl _

omit hjoin in
/-- Every run in front is met at depth zero or deeper. -/
theorem collapse_zero {front front' : List (Nat × Run α)} {run run' : Run α}
    (h : collapse join 0 front run = some (front', run')) : front' = [] := by
  induction front generalizing run with
  | nil => exact (Prod.mk.inj (Option.some.inj h)).1.symm
  | cons entry front ih =>
    rw [collapse, if_pos (Nat.zero_le _)] at h
    obtain ⟨joined, -, h⟩ := Option.bind_eq_some_iff.1 h
    exact ih h

theorem joinAll_perm {scale first : Nat} {front : List (Nat × Run α)} {run whole : Run α}
    {rest : List (Run α)} (h : joinAll join scale first front run rest = some whole) :
    whole.items.Perm (frontItems front ++ run.items ++ rest.flatMap Run.items) := by
  induction rest generalizing first front run with
  | nil =>
    obtain ⟨⟨front', run'⟩, hcollapsed, rfl⟩ := Option.map_eq_some_iff.1 h
    have hperm := collapse_perm hjoin hcollapsed
    rw [collapse_zero hcollapsed, frontItems, List.nil_append] at hperm
    rwa [List.flatMap_nil, List.append_nil]
  | cons next rest ih =>
    rw [joinAll] at h
    obtain ⟨⟨front', run'⟩, hcollapsed, h⟩ := Option.bind_eq_some_iff.1 h
    have hperm := (collapse_perm hjoin hcollapsed).append_right
      (next.items ++ rest.flatMap Run.items)
    rw [List.flatMap_cons, ← List.append_assoc, ← List.append_assoc] at *
    exact (ih h).trans hperm

end

theorem sortRuns_perm {eager : Bool} {room : Nat} {finish : List α → Option (List α)}
    (hfinish : ∀ {xs out}, finish xs = some out → out.Perm xs) {xs out : List α}
    (h : sortRuns less eager room finish xs = some out) : out.Perm xs := by
  obtain ⟨found, hfound, h⟩ := Option.bind_eq_some_iff.1 h
  have hitems : (found.flatMap Run.items).Perm xs := by
    cases xs with
    | nil =>
      obtain rfl := Option.some.inj hfound
      exact .refl _
    | cons x xs => exact runs_perm (leastRun_pos (Nat.succ_pos _)) (Nat.le_refl _) hfound
  cases found with
  | nil =>
    obtain rfl := Option.some.inj h
    exact hitems
  | cons run rest =>
    obtain ⟨whole, hwhole, h⟩ := Option.bind_eq_some_iff.1 h
    have hjoined := joinAll_perm (Run.join_perm hfinish) hwhole
    exact ((Run.finished_perm hfinish h).trans hjoined).trans hitems

/-! ## Parts -/

namespace Pivoted

theorem eq_of_ofPosition? {xs : List α} {position : Nat} {parts : Pivoted α}
    (h : ofPosition? xs position = some parts) :
    xs = parts.front ++ parts.pivot :: parts.behind := by
  rw [ofPosition?] at h
  split at h
  case h_1 pivot behind hdrop =>
    obtain rfl := Option.some.inj h
    show xs = xs.take position ++ pivot :: behind
    rw [← hdrop, List.take_append_drop]
  case h_2 => cases h

/-- What passes a test and what does not are all items, with the pivot on either side. -/
theorem select_perm (parts : Pivoted α) (withPivot : Bool) (test : α → Bool) :
    (parts.select withPivot test ++ parts.select (!withPivot) (!test ·)).Perm
      (parts.front ++ parts.pivot :: parts.behind) := by
  have hfront := List.filter_append_perm test parts.front
  have hbehind := List.filter_append_perm test parts.behind
  classical
  rw [List.perm_iff_count] at hfront hbehind ⊢
  intro x
  have hfront := hfront x
  have hbehind := hbehind x
  cases withPivot <;>
    simp only [select, List.count_append, List.count_cons, List.count_nil, Bool.not_false,
      Bool.not_true, Bool.false_eq_true, if_true, if_false] at hfront hbehind ⊢ <;>
    omega

end Pivoted

theorem sortParts_perm {levels : Nat} {bound : Option α} {xs out : List α}
    (h : sortParts less levels bound xs = some out) : out.Perm xs := by
  induction levels generalizing bound xs out with
  | zero =>
    rw [sortParts] at h
    split at h
    · exact sortSmall_perm h
    · exact sortRuns_perm (fun {_ _} h => Option.some.inj h ▸ .refl _) h
  | succ levels ih =>
    rw [sortParts] at h
    split at h
    case isTrue => exact sortSmall_perm h
    case isFalse =>
      obtain ⟨parts, hparts, h⟩ := Option.bind_eq_some_iff.1 h
      rw [Pivoted.eq_of_ofPosition? hparts]
      dsimp only at h
      split at h
      case isTrue =>
        obtain ⟨rest, hrest, h⟩ := Option.bind_eq_some_iff.1 h
        obtain rfl := Option.some.inj h
        have hselect := parts.select_perm true (!less parts.pivot ·)
        simp only [Bool.not_true, Bool.not_not] at hselect
        exact ((ih hrest).append_left _).trans hselect
      case isFalse =>
        obtain ⟨upper, hupper, h⟩ := Option.bind_eq_some_iff.1 h
        obtain ⟨lower, hlower, h⟩ := Option.bind_eq_some_iff.1 h
        obtain rfl := Option.some.inj h
        exact ((ih hlower).append (ih hupper)).trans (parts.select_perm false (less · parts.pivot))

/-- A sorting with a result keeps the items. -/
theorem sort_perm {xs out : List α} (h : sort less xs = some out) : out.Perm xs := by
  rw [sort] at h
  split at h
  · obtain rfl := Option.some.inj h
    exact insertAll_perm less [] xs
  · exact sortRuns_perm sortParts_perm h

end Sorting

end LooseRecords
