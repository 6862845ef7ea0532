import LooseRecords.Proofs.Sorting.Kept

/-!
# Sorting a few items by keys

Where the test compares keys, `Sorting.byKey`, sorting has the one result that it should have: the
items with rising keys, and those with one key as they stood, `Sorting.Sorts`. Here this is shown
for what is inserted and for what is merged from both ends.
-/

namespace LooseRecords

namespace Sorting

variable {α : Type} {key : α → Int}

/-- The test that compares keys. -/
def byKey (key : α → Int) (a b : α) : Bool := decide (key a < key b)

@[simp]
theorem byKey_iff {a b : α} : byKey key a b = true ↔ key a < key b := decide_eq_true_iff

/-- Read from the right, keys are compared as their negatives are from the left. -/
theorem byKey_swap (key : α → Int) :
    (fun a b => byKey key b a) = byKey fun a => -key a := by
  funext a b
  have hneg : -key a < -key b ↔ key b < key a := by omega
  simp [byKey, hneg]

/-! ## Ties -/

/-- Each key has the same items in two lists, in the same order. -/
def Ties (key : α → Int) (xs ys : List α) : Prop :=
  ∀ k, xs.filter (key · == k) = ys.filter (key · == k)

namespace Ties

variable {xs ys zs xs' ys' : List α}

theorem refl (xs : List α) : Ties key xs xs := fun _ => rfl

theorem trans (h : Ties key xs ys) (h' : Ties key ys zs) : Ties key xs zs :=
  fun k => (h k).trans (h' k)

theorem append (h : Ties key xs xs') (h' : Ties key ys ys') :
    Ties key (xs ++ ys) (xs' ++ ys') := by
  intro k
  rw [List.filter_append, List.filter_append, h k, h' k]

theorem cons (a : α) (h : Ties key xs ys) : Ties key (a :: xs) (a :: ys) :=
  append (refl [a]) h

theorem reverse (h : Ties key xs ys) : Ties key xs.reverse ys.reverse := by
  intro k
  rw [List.filter_reverse, List.filter_reverse, h k]

theorem mem_iff (h : Ties key xs ys) {a : α} : a ∈ xs ↔ a ∈ ys := by
  have hmem := congrArg (a ∈ ·) (h (key a))
  simpa [List.mem_filter] using hmem

/-- Neighbouring parts without a key in common may stand the other way round. -/
theorem exchange (h : ∀ x ∈ xs, ∀ y ∈ ys, key x ≠ key y) : Ties key (xs ++ ys) (ys ++ xs) := by
  intro k
  rw [List.filter_append, List.filter_append]
  by_cases hk : ∃ x ∈ xs, key x = k
  · obtain ⟨x, hx, rfl⟩ := hk
    have hnone : ys.filter (key · == key x) = [] :=
      List.filter_eq_nil_iff.2 fun y hy => by simpa using (h x hx y hy).symm
    rw [hnone, List.append_nil, List.nil_append]
  · have hnone : xs.filter (key · == k) = [] :=
      List.filter_eq_nil_iff.2 fun x hx => by simpa using fun hkey => hk ⟨x, hx, hkey⟩
    rw [hnone, List.append_nil, List.nil_append]

/-- Items that pass a test stand in front of the others, if no key is among both. -/
theorem partition {test : α → Bool}
    (h : ∀ x ∈ xs, ∀ y ∈ xs, test x = true → test y = false → key x ≠ key y) :
    Ties key (xs.filter test ++ xs.filter (!test ·)) xs := by
  induction xs with
  | nil => exact refl _
  | cons x xs ih =>
    have hrest := ih fun a ha b hb => h a (List.mem_cons_of_mem _ ha) b (List.mem_cons_of_mem _ hb)
    cases htest : test x with
    | true => simpa [List.filter_cons, htest] using hrest.cons x
    | false =>
      have hmove : Ties key (xs.filter test ++ [x]) ([x] ++ xs.filter test) := by
        refine exchange fun a ha b hb => ?_
        obtain ⟨ha, htrue⟩ := List.mem_filter.1 ha
        obtain rfl := List.mem_singleton.1 hb
        exact h a (List.mem_cons_of_mem _ ha) b List.mem_cons_self htrue htest
      have hmoved := (hmove.append (refl (xs.filter (!test ·)))).trans (hrest.cons x)
      simpa [List.filter_cons, htest] using hmoved

end Ties

/-! ## Sorted lists -/

/-- The keys rise, or stay as they are. -/
def Ascending (key : α → Int) (xs : List α) : Prop := xs.Pairwise fun a b => key a ≤ key b

/-- A list with its items in order of their keys, where items with one key stand as they stood. -/
structure Sorts (key : α → Int) (xs out : List α) : Prop where
  ascending : Ascending key out
  ties : Ties key out xs

theorem Ascending.sorts {xs : List α} (h : Ascending key xs) : Sorts key xs xs := ⟨h, .refl _⟩

theorem ascending_append {xs ys : List α} : Ascending key (xs ++ ys) ↔
    Ascending key xs ∧ Ascending key ys ∧ ∀ x ∈ xs, ∀ y ∈ ys, key x ≤ key y :=
  List.pairwise_append

theorem ascending_cons {x : α} {xs : List α} : Ascending key (x :: xs) ↔
    (∀ y ∈ xs, key x ≤ key y) ∧ Ascending key xs :=
  List.pairwise_cons

theorem ascending_of_length {xs : List α} (h : xs.length ≤ 1) : Ascending key xs := by
  cases xs with
  | nil => exact .nil
  | cons x xs =>
    obtain rfl := List.length_eq_zero_iff.1 (Nat.le_zero.1 (Nat.le_of_succ_le_succ h))
    exact List.pairwise_singleton ..

/-- An item in front that belongs there. -/
theorem Sorts.cons {a : α} {xs out : List α} (h : Sorts key xs out) (ha : ∀ x ∈ xs, key a ≤ key x) :
    Sorts key (a :: xs) (a :: out) where
  ascending := ascending_cons.2 ⟨fun x hx => ha x (h.ties.mem_iff.1 hx), h.ascending⟩
  ties := h.ties.cons a

/-- An item that belongs in front of others, though they stood in front of it. -/
theorem Sorts.cons_behind {a : α} {xs ys out : List α} (h : Sorts key (xs ++ ys) out)
    (hless : ∀ x ∈ xs, key a < key x) (hle : ∀ y ∈ ys, key a ≤ key y) :
    Sorts key (xs ++ a :: ys) (a :: out) := by
  have hmove : Ties key ([a] ++ xs) (xs ++ [a]) := by
    refine .exchange fun b hb x hx => ?_
    obtain rfl := List.mem_singleton.1 hb
    exact Int.ne_of_lt (hless x hx)
  have hall : ∀ x ∈ xs ++ ys, key a ≤ key x :=
    List.forall_mem_append.2 ⟨fun x hx => Int.le_of_lt (hless x hx), hle⟩
  have hmoved := (h.ties.cons a).trans (hmove.append (.refl ys))
  rw [List.append_assoc] at hmoved
  exact ⟨(h.cons hall).ascending, hmoved⟩

/-- A list from its end, with the keys turned round. -/
theorem Ascending.reverse {xs : List α} (h : Ascending key xs) :
    Ascending (fun a => -key a) xs.reverse :=
  List.pairwise_reverse.2 (h.imp fun h => Int.neg_le_neg h)

theorem Sorts.reverse {xs out : List α} (h : Sorts (fun a => -key a) xs.reverse out) :
    Sorts key xs out.reverse where
  ascending := List.pairwise_reverse.2 (h.ascending.imp Int.neg_le_neg_iff.1)
  ties := by
    intro k
    have hties := h.ties (-k)
    have hkey : ∀ a, (-key a == -k) = (key a == k) := by simp
    simp only [hkey] at hties
    rw [List.filter_reverse, hties, List.filter_reverse, List.reverse_reverse]

/-! ## Insertion -/

/-- Behind items of which the last one stands first, an item stands in order. -/
theorem insertBehind_pairwise {x : α} {ys : List α} (h : ys.Pairwise fun a b => key b ≤ key a) :
    (insertBehind (byKey key) x ys).Pairwise fun a b => key b ≤ key a := by
  induction ys with
  | nil => exact List.pairwise_singleton ..
  | cons y ys ih =>
    obtain ⟨hy, hys⟩ := List.pairwise_cons.1 h
    rw [insertBehind]
    split
    case isTrue hless =>
      rw [byKey_iff] at hless
      refine List.pairwise_cons.2 ⟨fun z hz => ?_, ih hys⟩
      obtain rfl | hz := List.mem_cons.1 ((insertBehind_perm _ x ys).mem_iff.1 hz)
      · omega
      · exact hy z hz
    case isFalse hless =>
      rw [byKey_iff] at hless
      refine List.pairwise_cons.2 ⟨fun z hz => ?_, h⟩
      obtain rfl | hz := List.mem_cons.1 hz
      · omega
      · have := hy z hz
        omega

theorem insertBehind_ties (key : α → Int) (x : α) (ys : List α) :
    Ties key (insertBehind (byKey key) x ys) (x :: ys) := by
  induction ys with
  | nil => exact .refl _
  | cons y ys ih =>
    rw [insertBehind]
    split
    case isTrue hless =>
      rw [byKey_iff] at hless
      have hmove : Ties key ([y] ++ [x]) ([x] ++ [y]) := by
        refine .exchange fun a ha b hb => ?_
        rw [List.mem_singleton] at ha hb
        subst ha hb
        omega
      exact (ih.cons y).trans (hmove.append (.refl ys))
    case isFalse => exact .refl _

theorem insertAll_sorts {sorted : List α} (h : Ascending key sorted) (more : List α) :
    Sorts key (sorted ++ more) (insertAll (byKey key) sorted more) := by
  have hall : ∀ done : List α, (done.Pairwise fun a b => key b ≤ key a) →
      ((more.foldl (fun done x => insertBehind (byKey key) x done) done).Pairwise
        fun a b => key b ≤ key a) ∧
      Ties key (more.foldl (fun done x => insertBehind (byKey key) x done) done)
        (more.reverse ++ done) := by
    induction more with
    | nil => exact fun done hdone => ⟨hdone, .refl _⟩
    | cons x more ih =>
      intro done hdone
      obtain ⟨hpairwise, hties⟩ := ih _ (insertBehind_pairwise hdone)
      refine ⟨hpairwise, hties.trans ?_⟩
      have hx := (Ties.refl more.reverse).append (insertBehind_ties key x done)
      simpa using hx
  obtain ⟨hpairwise, hties⟩ := hall sorted.reverse (List.pairwise_reverse.2 h)
  refine ⟨List.pairwise_reverse.2 hpairwise, ?_⟩
  simpa [insertAll] using hties.reverse

/-! ## Four items -/

theorem sortTwo_sorts (key : α → Int) (a b : α) :
    Sorts key [a, b] [(sortTwo (byKey key) a b).1, (sortTwo (byKey key) a b).2] := by
  rw [sortTwo]
  split
  case isTrue hless =>
    rw [byKey_iff] at hless
    refine ⟨by simp [Ascending]; omega, ?_⟩
    show Ties key ([b] ++ [a]) ([a] ++ [b])
    exact .exchange (by simp; omega)
  case isFalse hless =>
    rw [byKey_iff] at hless
    exact Ascending.sorts (by simp [Ascending]; omega)

/-- With the ends in place, the two items between them are put in order. -/
theorem sortTwo_between {first left right last : α} {xs : List α}
    (hties : Ties key [first, left, right, last] xs) (hleft : key first ≤ key left)
    (hright : key first ≤ key right) (hleft' : key left ≤ key last)
    (hright' : key right ≤ key last) :
    Sorts key xs
      [first, (sortTwo (byKey key) left right).1, (sortTwo (byKey key) left right).2, last] := by
  have hmiddle := (sortTwo_sorts key left right).ties
  refine ⟨?_, ((hmiddle.append (.refl [last])).cons first).trans hties⟩
  rw [sortTwo]
  split
  case isTrue hless =>
    rw [byKey_iff] at hless
    simp [Ascending]
    omega
  case isFalse hless =>
    rw [byKey_iff] at hless
    simp [Ascending]
    omega

theorem sortFour_sorts (key : α → Int) (a b c d : α) :
    Sorts key [a, b, c, d] (sortFour (byKey key) a b c d) := by
  have hab := sortTwo_sorts key a b
  have hcd := sortTwo_sorts key c d
  rw [sortFour]
  generalize sortTwo (byKey key) a b = low at hab ⊢
  generalize sortTwo (byKey key) c d = high at hcd ⊢
  obtain ⟨a', b'⟩ := low
  obtain ⟨c', d'⟩ := high
  have hpairs : Ties key [a', b', c', d'] [a, b, c, d] := hab.ties.append hcd.ties
  have hlow : key a' ≤ key b' := by simpa [Ascending] using hab.ascending
  have hhigh : key c' ≤ key d' := by simpa [Ascending] using hcd.ascending
  dsimp only
  split
  case h_1 hca hdb =>
    have hca : key a' ≤ key c' := by simpa [byKey] using hca
    have hdb : key b' ≤ key d' := by simpa [byKey] using hdb
    exact sortTwo_between hpairs hlow hca hdb hhigh
  case h_2 hca hdb =>
    have hca : key a' ≤ key c' := by simpa [byKey] using hca
    have hdb : key d' < key b' := by simpa [byKey] using hdb
    have hmove : Ties key ([c', d'] ++ [b']) ([b'] ++ [c', d']) := .exchange (by simp; omega)
    exact @sortTwo_between α key a' c' d' b' _ ((hmove.cons a').trans hpairs) hca (by omega)
      (by omega) (by omega)
  case h_3 hca hdb =>
    have hca : key c' < key a' := by simpa [byKey] using hca
    have hdb : key b' ≤ key d' := by simpa [byKey] using hdb
    have hmove : Ties key ([c'] ++ [a', b']) ([a', b'] ++ [c']) := .exchange (by simp; omega)
    exact @sortTwo_between α key c' a' b' d' _ ((hmove.append (.refl [d'])).trans hpairs)
      (by omega) (by omega) (by omega) hdb
  case h_4 hca hdb =>
    have hca : key c' < key a' := by simpa [byKey] using hca
    have hdb : key d' < key b' := by simpa [byKey] using hdb
    have hmove : Ties key ([c'] ++ [a', b']) ([a', b'] ++ [c']) := .exchange (by simp; omega)
    have hmove' : Ties key ([d'] ++ [b']) ([b'] ++ [d']) := .exchange (by simp; omega)
    have hmoved := (Ties.append (.refl [c', a']) hmove').trans (hmove.append (.refl [d']))
    exact @sortTwo_between α key c' a' d' b' _ (hmoved.trans hpairs) (by omega) (by omega)
      (by omega) (by omega)

theorem sortFromFour_sorts (xs : List α) : Sorts key xs (sortFromFour (byKey key) xs) := by
  rw [sortFromFour.eq_def]
  split
  case h_1 a b c d rest =>
    have hfour := sortFour_sorts key a b c d
    have hall := insertAll_sorts hfour.ascending rest
    exact ⟨hall.ascending, hall.ties.trans (hfour.ties.append (.refl rest))⟩
  case h_2 => exact insertAll_sorts .nil xs

/-! ## Merging from both ends -/

/-- Where sorted lists are cut so that what lies in front on the left and on the right belongs in
front of what lies behind on the other side. -/
structure Cut (key : α → Int) (frontLeft restLeft frontRight restRight : List α) : Prop where
  left : ∀ a ∈ frontLeft, ∀ b ∈ restRight, key a ≤ key b
  right : ∀ b ∈ frontRight, ∀ a ∈ restLeft, key b < key a

/-- What is drawn from sorted lists is sorted, and it is what belongs in front. -/
theorem draw_cut {n : Nat} {as bs : List α} (has : Ascending key as) (hbs : Ascending key bs)
    (hn : n ≤ as.length) (hn' : n ≤ bs.length) :
    let drawn := draw (byKey key) n as bs
    ∃ left right, as = left ++ drawn.left ∧ bs = right ++ drawn.right ∧
      Sorts key (left ++ right) drawn.taken ∧ Cut key left drawn.left right drawn.right ∧
      left.length + right.length = n := by
  induction n generalizing as bs with
  | zero =>
    have hnone : draw (byKey key) 0 as bs = ⟨[], as, bs⟩ := by
      rw [draw]
      rintro _ _ _ _ _ ⟨⟩
    rw [hnone]
    exact ⟨[], [], rfl, rfl, Ascending.sorts .nil, ⟨by simp, by simp⟩, rfl⟩
  | succ n ih =>
    obtain ⟨a, as, rfl⟩ := List.exists_cons_of_length_pos (Nat.lt_of_lt_of_le n.succ_pos hn)
    obtain ⟨b, bs, rfl⟩ := List.exists_cons_of_length_pos (Nat.lt_of_lt_of_le n.succ_pos hn')
    obtain ⟨ha, has'⟩ := ascending_cons.1 has
    obtain ⟨hb, hbs'⟩ := ascending_cons.1 hbs
    rw [List.length_cons] at hn hn'
    rw [draw]
    split
    case isTrue hless =>
      rw [byKey_iff] at hless
      obtain ⟨left, right, hleft, hright, hsorts, hcut, hcount⟩ :=
        ih has hbs' (by simp; omega) (by omega)
      have hbelow : ∀ x ∈ a :: as, key b < key x := by
        intro x hx
        obtain rfl | hx := List.mem_cons.1 hx
        · exact hless
        · exact Int.lt_of_lt_of_le hless (ha x hx)
      rw [hleft] at hbelow
      rw [hright] at hb
      obtain ⟨hbelow, hbelow'⟩ := List.forall_mem_append.1 hbelow
      obtain ⟨hb, -⟩ := List.forall_mem_append.1 hb
      refine ⟨left, b :: right, hleft, congrArg (b :: ·) hright, hsorts.cons_behind hbelow hb,
        ⟨hcut.left, List.forall_mem_cons.2 ⟨hbelow', hcut.right⟩⟩, ?_⟩
      rw [List.length_cons, ← hcount, Nat.add_succ]
    case isFalse hless =>
      rw [byKey_iff, Int.not_lt] at hless
      obtain ⟨left, right, hleft, hright, hsorts, hcut, hcount⟩ :=
        ih has' hbs (by omega) (by simp; omega)
      have habove : ∀ y ∈ b :: bs, key a ≤ key y := by
        intro y hy
        obtain rfl | hy := List.mem_cons.1 hy
        · exact hless
        · exact Int.le_trans hless (hb y hy)
      rw [hleft] at ha
      rw [hright] at habove
      obtain ⟨ha, -⟩ := List.forall_mem_append.1 ha
      obtain ⟨habove, habove'⟩ := List.forall_mem_append.1 habove
      refine ⟨a :: left, right, congrArg (a :: ·) hleft, hright,
        hsorts.cons (List.forall_mem_append.2 ⟨ha, habove⟩),
        ⟨List.forall_mem_cons.2 ⟨habove', hcut.left⟩, hcut.right⟩, ?_⟩
      rw [List.length_cons, ← hcount, Nat.succ_add]

section

variable {front rest back rest' xs : List α}

/-- If less is left of a list than both ends have to leave, an item was drawn twice. -/
theorem exists_mem_twice (hfront : xs = front ++ rest) (hback : xs.reverse = back ++ rest')
    (h : rest.length + rest'.length < xs.length) : ∃ x ∈ front, x ∈ back := by
  have hlength := congrArg List.length hfront
  obtain ⟨middle, hrest', -⟩ | ⟨middle, hfront', hback'⟩ :=
    List.append_eq_append_iff.1 (append_of_reverse hfront hback)
  · have hcount := congrArg List.length hrest'
    simp only [List.length_append, List.length_reverse] at hlength hcount
    omega
  · have hcount := congrArg List.length hfront'
    simp only [List.length_append, List.length_reverse] at hlength hcount
    obtain ⟨x, hx⟩ := List.exists_mem_of_length_pos (show 0 < middle.length by omega)
    exact ⟨x, hfront' ▸ List.mem_append_right _ hx,
      List.mem_reverse.1 (hback' ▸ List.mem_append_left _ hx)⟩

/-- If more is left, an item was not drawn. -/
theorem exists_mem_between (hfront : xs = front ++ rest) (hback : xs.reverse = back ++ rest')
    (h : xs.length < rest.length + rest'.length) : ∃ x ∈ rest, x ∈ rest' := by
  have hlength := congrArg List.length hfront
  obtain ⟨middle, hrest', hrest⟩ | ⟨middle, hfront', -⟩ :=
    List.append_eq_append_iff.1 (append_of_reverse hfront hback)
  · have hcount := congrArg List.length hrest'
    simp only [List.length_append, List.length_reverse] at hlength hcount
    obtain ⟨x, hx⟩ := List.exists_mem_of_length_pos (show 0 < middle.length by omega)
    exact ⟨x, hrest ▸ List.mem_append_left _ hx,
      List.mem_reverse.1 (hrest' ▸ List.mem_append_right _ hx)⟩
  · have hcount := congrArg List.length hfront'
    simp only [List.length_append, List.length_reverse] at hlength hcount
    omega

end

/-- Both ends of two sorted lists take no item twice if they take no more items than there are. An
item that is taken twice on one side would leave one on the other side that is not taken, and the
ends would disagree about which of the two belongs in front. -/
theorem le_of_cuts {as bs left restLeft right restRight left' restLeft' right' restRight' : List α}
    (hleft : as = left ++ restLeft) (hleft' : as.reverse = left' ++ restLeft')
    (hright : bs = right ++ restRight) (hright' : bs.reverse = right' ++ restRight')
    (hcut : Cut key left restLeft right restRight)
    (hcut' : Cut (fun a => -key a) right' restRight' left' restLeft')
    (h : left.length + right.length + (right'.length + left'.length) ≤ as.length + bs.length) :
    as.length ≤ restLeft.length + restLeft'.length ∧
      bs.length ≤ restRight.length + restRight'.length := by
  have hl := congrArg List.length hleft
  have hl' := congrArg List.length hleft'
  have hr := congrArg List.length hright
  have hr' := congrArg List.length hright'
  simp only [List.length_append, List.length_reverse] at hl hl' hr hr'
  constructor
  · by_contra hlt
    obtain ⟨a, ha, ha'⟩ := exists_mem_twice hleft hleft' (Nat.lt_of_not_le hlt)
    obtain ⟨b, hb, hb'⟩ := exists_mem_between hright hright' (by omega)
    have hle := hcut.left a ha b hb
    have hless := hcut'.right a ha' b hb'
    omega
  · by_contra hlt
    obtain ⟨b, hb, hb'⟩ := exists_mem_twice hright hright' (Nat.lt_of_not_le hlt)
    obtain ⟨a, ha, ha'⟩ := exists_mem_between hleft hleft' (by omega)
    have hless := hcut.right b hb a ha
    have hle := hcut'.left b hb' a ha'
    omega

/-- What is drawn from the front of two sorted lists, an item at most that stays between, and what
is drawn from the end are in order. -/
theorem sorts_of_cuts {front back left middle left' right between right' : List α}
    (has : Ascending key (left ++ middle ++ left'))
    (hbs : Ascending key (right ++ between ++ right'))
    (hone : middle.length + between.length ≤ 1)
    (hfront : Sorts key (left ++ right) front) (hback : Sorts key (left' ++ right') back)
    (hcut : Cut key left (middle ++ left') right (between ++ right'))
    (hcut' : Cut key (left ++ middle) left' (right ++ between) right') :
    Sorts key (left ++ middle ++ left' ++ (right ++ between ++ right'))
      (front ++ (middle ++ between) ++ back) := by
  obtain ⟨hleft, -, hleft'⟩ := ascending_append.1 has
  obtain ⟨-, -, hmiddle⟩ := ascending_append.1 hleft
  obtain ⟨hright, -, hright'⟩ := ascending_append.1 hbs
  obtain ⟨-, -, hbetween⟩ := ascending_append.1 hright
  constructor
  · have hfew : Ascending key (middle ++ between) :=
      ascending_of_length (by rwa [List.length_append])
    have hlast : ∀ x, x ∈ left ++ middle ∨ x ∈ right ++ between → ∀ y ∈ back,
        key x ≤ key y := by
      intro x hx y hy
      obtain hy | hy := List.mem_append.1 (hback.ties.mem_iff.1 hy) <;> obtain hx | hx := hx
      · exact hleft' x hx y hy
      · exact Int.le_of_lt (hcut'.right x hx y hy)
      · exact hcut'.left x hx y hy
      · exact hright' x hx y hy
    refine ascending_append.2 ⟨ascending_append.2 ⟨hfront.ascending, hfew, ?_⟩, hback.ascending, ?_⟩
    · intro x hx y hy
      obtain hx | hx := List.mem_append.1 (hfront.ties.mem_iff.1 hx) <;>
        obtain hy | hy := List.mem_append.1 hy
      · exact hmiddle x hx y hy
      · exact hcut.left x hx y (List.mem_append_left _ hy)
      · exact Int.le_of_lt (hcut.right x hx y (List.mem_append_left _ hy))
      · exact hbetween x hx y hy
    · intro x hx
      refine hlast x ?_
      obtain hx | hx := List.mem_append.1 hx
      · exact (List.mem_append.1 (hfront.ties.mem_iff.1 hx)).imp
          (List.mem_append_left _) (List.mem_append_left _)
      · exact (List.mem_append.1 hx).imp (List.mem_append_right _) (List.mem_append_right _)
  · -- The items on the right move behind those on the left that they are less than.
    have hmove : Ties key (right ++ middle) (middle ++ right) :=
      .exchange fun b hb a ha => Int.ne_of_lt (hcut.right b hb a (List.mem_append_left _ ha))
    have hmove' : Ties key (right ++ between ++ left') (left' ++ (right ++ between)) :=
      .exchange fun b hb a ha => Int.ne_of_lt (hcut'.right b hb a ha)
    have hparts := (hfront.ties.append (.refl (middle ++ between))).append hback.ties
    have hmoved := ((Ties.refl left).append hmove).append (.refl (between ++ (left' ++ right')))
    have hmoved' := ((Ties.refl (left ++ middle)).append hmove').append (.refl right')
    simp only [List.append_assoc] at hparts hmoved hmoved' ⊢
    exact (hparts.trans hmoved).trans hmoved'

theorem mergeEnds_sorts {as bs : List α} (has : Ascending key as) (hbs : Ascending key bs)
    (hle : as.length ≤ bs.length) (hle' : bs.length ≤ as.length + 1) :
    ∃ out, mergeEnds (byKey key) as bs = some out ∧ Sorts key (as ++ bs) out := by
  obtain ⟨left, right, hleft, hright, hsorts, hcut, hcount⟩ :=
    draw_cut has hbs (Nat.le_refl _) hle
  have hle'' : as.length ≤ bs.reverse.length := by rwa [List.length_reverse]
  obtain ⟨right', left', hright', hleft', hsorts', hcut', hcount'⟩ :=
    draw_cut hbs.reverse has.reverse hle''
      (Nat.le_of_eq List.length_reverse.symm)
  rw [mergeEnds, byKey_swap]
  generalize draw (byKey key) as.length as bs = front at *
  generalize draw (byKey fun a => -key a) as.length bs.reverse as.reverse = back at *
  obtain ⟨hgap, hgap'⟩ := le_of_cuts hleft hleft' hright hright' hcut hcut' (by omega)
  have has' := eq_append_middle hleft hleft' hgap
  have hbs' := eq_append_middle hright hright' hgap'
  rw [if_pos ⟨hgap, hgap'⟩]
  generalize front.left.take (front.left.length + back.right.length - as.length) = middle at *
  generalize front.right.take (front.right.length + back.left.length - bs.length) = between at *
  refine ⟨_, rfl, ?_⟩
  -- What one end leaves is the part in the middle and what the other end takes.
  have hrest : front.left = middle ++ left'.reverse :=
    List.append_cancel_left (by rw [← hleft, has', List.append_assoc])
  have hrest' : front.right = between ++ right'.reverse :=
    List.append_cancel_left (by rw [← hright, hbs', List.append_assoc])
  have hother : back.right.reverse = left ++ middle :=
    List.append_cancel_right (by rw [← List.reverse_append, ← hleft', List.reverse_reverse, has'])
  have hother' : back.left.reverse = right ++ between :=
    List.append_cancel_right (by rw [← List.reverse_append, ← hright', List.reverse_reverse, hbs'])
  have hback : Sorts key (left'.reverse ++ right'.reverse) back.taken.reverse := by
    rw [← List.reverse_append]
    exact Sorts.reverse (by rwa [List.reverse_reverse])
  rw [hrest, hrest'] at hcut
  have hfew : middle.length + between.length ≤ 1 := by
    have hm := congrArg List.length has'
    have hb := congrArg List.length hbs'
    simp only [List.length_append, List.length_reverse] at hm hb
    omega
  rw [has', hbs', List.append_assoc front.taken]
  rw [has'] at has
  rw [hbs'] at hbs
  refine sorts_of_cuts has hbs hfew hsorts hback hcut ⟨fun a ha b hb => ?_, fun b hb a ha => ?_⟩
  · rw [← hother, List.mem_reverse] at ha
    exact Int.neg_le_neg_iff.1 (hcut'.left b (List.mem_reverse.1 hb) a ha)
  · rw [← hother', List.mem_reverse] at hb
    exact Int.neg_lt_neg_iff.1 (hcut'.right a (List.mem_reverse.1 ha) b hb)

/-- Up to 32 items, and any number of them, are sorted. -/
theorem sortSmall_sorts (key : α → Int) (xs : List α) :
    ∃ out, sortSmall (byKey key) xs = some out ∧ Sorts key xs out := by
  rw [sortSmall]
  split
  case isTrue hfew =>
    exact ⟨xs, rfl, (ascending_of_length (Nat.le_of_lt_succ hfew)).sorts⟩
  case isFalse hmany =>
    have hhalf : ∀ half, Sorts key half
        ((if 8 ≤ xs.length then sortFromFour (byKey key) else insertAll (byKey key) []) half) := by
      intro half
      split
      · exact sortFromFour_sorts half
      · exact insertAll_sorts .nil half
    have hlength : ∀ half, ((if 8 ≤ xs.length then sortFromFour (byKey key)
        else insertAll (byKey key) []) half).length = half.length := by
      intro half
      split
      · exact (sortFromFour_perm _ half).length_eq
      · exact (insertAll_perm _ [] half).length_eq
    obtain ⟨out, hout, hsorts⟩ := mergeEnds_sorts (hhalf (xs.take (xs.length / 2))).ascending
      (hhalf (xs.drop (xs.length / 2))).ascending
      (by rw [hlength, hlength, List.length_take, List.length_drop]; omega)
      (by rw [hlength, hlength, List.length_take, List.length_drop]; omega)
    refine ⟨out, hout, hsorts.ascending, hsorts.ties.trans ?_⟩
    have hparts := (hhalf (xs.take (xs.length / 2))).ties.append
      (hhalf (xs.drop (xs.length / 2))).ties
    rwa [List.take_append_drop] at hparts

end Sorting

end LooseRecords
