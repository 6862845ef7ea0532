import LooseRecords.Proofs.Number.Rounding
import LooseRecords.Summary.Aggregate
import Mathlib.Data.List.Forall2

/-!
# Numbers at one place

Two numbers are numerically equal if they stand at the same place in the order: they are one number,
or zeros that may differ in sign. Neither comparisons nor what sums, quotients and ranges come to
depend on more than the places, so the sign of zero never spreads: `Aggregate.samePlaces_ofList`.
-/

namespace LooseRecords

namespace Number

/-- The numbers are equal, or both are zero. Both may be `nan`. -/
def SamePlace (a b : Number) : Prop := a.place? = b.place?

namespace SamePlace

variable {a b c : Number}

theorem refl (a : Number) : a.SamePlace a := rfl

theorem symm (h : a.SamePlace b) : b.SamePlace a := Eq.symm h

theorem trans (h : a.SamePlace b) (h' : b.SamePlace c) : a.SamePlace c := Eq.trans h h'

theorem zeros (s t : Bool) : (ofRank s 0).SamePlace (ofRank t 0) := by
  cases s <;> cases t <;> rfl

/-- Different numbers at the same place are the zeros. -/
theorem eq_or_zeros (h : a.SamePlace b) : a = b ∨ ∃ s t, a = ofRank s 0 ∧ b = ofRank t 0 := by
  have hcount : 0 < Rank.count := by decide
  unfold SamePlace place? at h
  match a, b with
  | .nan, .nan => exact .inl rfl
  | .nan, .infinite _ | .nan, .finite _ _ | .infinite _, .nan | .finite _ _, .nan => cases h
  | .infinite s, .infinite t =>
    left
    cases s <;> cases t <;> simp at h ⊢ <;> omega
  | .infinite s, .finite t r | .finite t r, .infinite s =>
    have hr := r.isLt
    cases s <;> cases t <;> simp at h <;> omega
  | .finite s r, .finite t r' =>
    by_cases hsign : s = t
    · left
      subst hsign
      have hrank : r.val = r'.val := by cases s <;> simp at h <;> omega
      rw [Fin.ext hrank]
    · right
      have hranks : r.val = 0 ∧ r'.val = 0 := by
        cases s <;> cases t <;> simp at h hsign <;> omega
      refine ⟨s, t, ?_, ?_⟩
      · rw [ofRank, dif_pos (by decide)]
        exact congrArg _ (Fin.ext hranks.1)
      · rw [ofRank, dif_pos (by decide)]
        exact congrArg _ (Fin.ext hranks.2)

end SamePlace

/-! ## Comparisons -/

section

variable {a b a' b' : Number}

theorem compare?_congr (ha : a.SamePlace a') (hb : b.SamePlace b') :
    a.compare? b = a'.compare? b' := by
  simp only [SamePlace] at ha hb
  simp only [compare?, ha, hb]

theorem lt_congr (ha : a.SamePlace a') (hb : b.SamePlace b') : a.lt b = a'.lt b' := by
  rw [lt, lt, compare?_congr ha hb]

theorem le_congr (ha : a.SamePlace a') (hb : b.SamePlace b') : a.le b = a'.le b' := by
  rw [le, le, compare?_congr ha hb]

theorem isNan_eq_isNone (a : Number) : a.isNan = a.place?.isNone := by cases a <;> rfl

/-- What is a number has a place. -/
theorem isNan_eq_false_iff (a : Number) : a.isNan = false ↔ ∃ x, a.place? = some x := by
  rw [isNan_eq_isNone, Option.isNone_eq_false_iff, Option.isSome_iff_exists]

theorem isNan_congr (ha : a.SamePlace a') : a.isNan = a'.isNan := by
  rw [isNan_eq_isNone, isNan_eq_isNone, ha]

theorem isZero_congr (ha : a.SamePlace a') : a.isZero = a'.isZero := by
  rw [isZero, isZero, ha]

/-- Numerically equal numbers that are ordered at all compare as equal. -/
theorem compare?_self (h : a.SamePlace b) (hnan : a.isNan = false) : a.compare? b = some .eq := by
  obtain ⟨x, hx⟩ := (isNan_eq_false_iff a).1 hnan
  have hy : b.place? = some x := by rw [← h, hx]
  simp [compare?, hx, hy]

/-- Where there is no number nothing is ordered. -/
theorem compare?_eq_none (h : a.isNan = true ∨ b.isNan = true) : a.compare? b = none := by
  simp only [isNan_eq_isNone, Option.isNone_iff_eq_none] at h
  rcases h with ha | hb
  · simp [compare?, ha]
  · simp [compare?, hb]

theorem lt_of_isNan (h : a.isNan = true ∨ b.isNan = true) : a.lt b = false := by
  rw [lt, compare?_eq_none h]
  rfl

theorem le_of_isNan (h : a.isNan = true ∨ b.isNan = true) : a.le b = false := by
  rw [le, compare?_eq_none h]
  rfl

/-- Of two numbers one is strictly below the other, or the other is not above it. -/
theorem le_eq_not_lt (ha : a.isNan = false) (hb : b.isNan = false) : a.le b = !b.lt a := by
  obtain ⟨x, hx⟩ := (isNan_eq_false_iff a).1 ha
  obtain ⟨y, hy⟩ := (isNan_eq_false_iff b).1 hb
  have hswap : compare y x = (compare x y).swap := Std.OrientedOrd.eq_swap
  simp only [le, lt, compare?, hx, hy, hswap]
  cases compare x y <;> rfl

/-- One number lies below another if its place does. -/
theorem lt_iff (a b : Number) :
    a.lt b = true ↔ ∃ x y, a.place? = some x ∧ b.place? = some y ∧ x < y := by
  cases ha : a.place? <;> cases hb : b.place? <;> simp [lt, compare?, ha, hb, Int.compare_eq_lt]

/-- One number lies at or below another if its place does. -/
theorem le_iff (a b : Number) :
    a.le b = true ↔ ∃ x y, a.place? = some x ∧ b.place? = some y ∧ x ≤ y := by
  cases ha : a.place? <;> cases hb : b.place? <;>
    simp [le, compare?, ha, hb, Int.compare_eq_lt, Int.le_iff_lt_or_eq]

theorem compare?_swap (a b : Number) : b.compare? a = (a.compare? b).map Ordering.swap := by
  cases ha : a.place? with
  | none => cases hb : b.place? <;> simp [compare?, ha, hb]
  | some x =>
    cases hb : b.place? with
    | none => simp [compare?, ha, hb]
    | some y =>
      simp only [compare?, ha, hb, Option.map_some]
      exact congrArg some Std.OrientedOrd.eq_swap

/-- Nothing lies below or above `nan`. -/
theorem nan_lt (a : Number) : nan.lt a = false := rfl

theorem lt_nan (a : Number) : a.lt .nan = false := by cases a <;> rfl

theorem exists_place? {a : Number} (h : a ≠ .nan) : ∃ x, a.place? = some x := by
  cases a with
  | nan => exact absurd rfl h
  | infinite => exact ⟨_, rfl⟩
  | finite => exact ⟨_, rfl⟩

/-- Numbers that fall in neither of two steps do not fall in both together, if there is a number
between the steps. -/
theorem lt_eq_false_trans {a b c : Number} (hb : b ≠ .nan) (hab : b.lt a = false)
    (hbc : c.lt b = false) : c.lt a = false := by
  obtain ⟨y, hy⟩ := exists_place? hb
  rw [← Bool.not_eq_true, lt_iff] at *
  rintro ⟨z, x, hz, hx, hlt⟩
  by_cases hyx : y < x
  · exact hab ⟨y, x, hy, hx, hyx⟩
  · exact hbc ⟨z, y, hz, hy, by omega⟩

/-! ## Ranges -/

theorem SamePlace.min (ha : a.SamePlace a') (hb : b.SamePlace b') :
    (a.min b).SamePlace (a'.min b') := by
  rw [Number.min, Number.min, isNan_congr ha, lt_congr hb ha]
  split
  · exact hb
  · split
    · exact hb
    · exact ha

theorem SamePlace.max (ha : a.SamePlace a') (hb : b.SamePlace b') :
    (a.max b).SamePlace (a'.max b') := by
  rw [Number.max, Number.max, isNan_congr ha, lt_congr ha hb]
  split
  · exact hb
  · split
    · exact hb
    · exact ha

/-! ## Sums and quotients -/

theorem add_comm (a b : Number) : a.add b = b.add a := by
  match a, b with
  | .nan, .nan | .nan, .infinite _ | .nan, .finite _ _ => rfl
  | .infinite _, .nan | .finite _ _, .nan => rfl
  | .infinite s, .infinite t => cases s <;> cases t <;> rfl
  | .infinite _, .finite _ _ | .finite _ _, .infinite _ => rfl
  | .finite s r, .finite t r' => simp only [add, Int.add_comm, Bool.and_comm]

/-- A zero adds nothing but its sign, and that only to a zero. -/
theorem zero_add_samePlace (s t : Bool) (b : Number) :
    ((ofRank s 0).add b).SamePlace ((ofRank t 0).add b) := by
  cases b with
  | nan | infinite => exact .refl _
  | finite sign r =>
    have hzero : ∀ s : Bool, (if s then -(Rank.units 0 : Int) else Rank.units 0) = 0 := by decide
    show (add (finite s ⟨0, by decide⟩) (finite sign r)).SamePlace
      (add (finite t ⟨0, by decide⟩) (finite sign r))
    simp only [add, hzero, Int.zero_add]
    generalize (if sign then -(Rank.units r.val : Int) else Rank.units r.val) = y
    split
    · exact .zeros _ _
    · exact .refl _

theorem SamePlace.add (ha : a.SamePlace a') (hb : b.SamePlace b') :
    (a.add b).SamePlace (a'.add b') := by
  have hleft : ∀ {a a' : Number}, a.SamePlace a' → ∀ b, (a.add b).SamePlace (a'.add b) := by
    intro a a' h b
    obtain rfl | ⟨s, t, rfl, rfl⟩ := h.eq_or_zeros
    · exact .refl _
    · exact zero_add_samePlace s t b
  refine (hleft ha b).trans ?_
  rw [add_comm a', add_comm a']
  exact hleft hb a'

/-- A quotient of zero is a zero, or it is none. -/
theorem SamePlace.div (ha : a.SamePlace a') (b : Number) : (a.div b).SamePlace (a'.div b) := by
  obtain rfl | ⟨s, t, rfl, rfl⟩ := ha.eq_or_zeros
  · exact .refl _
  · cases b with
    | nan => exact .refl _
    | infinite => exact .zeros _ _
    | finite sign r =>
      show (div (finite s ⟨0, by decide⟩) (finite sign r)).SamePlace
        (div (finite t ⟨0, by decide⟩) (finite sign r))
      simp only [div]
      split
      case isTrue => exact .refl _
      case isFalse hr =>
        have hunits : Rank.units 0 * Rank.one = 0 := Nat.zero_mul _
        have hpos : 0 < Rank.units r.val :=
          Nat.pos_of_ne_zero (mt (Rank.units_eq_zero_iff r.val).1 hr)
        rw [hunits, Rank.nearest_eq_zero (by omega)]
        exact .zeros _ _

theorem samePlace_sum {xs ys : List Number} (h : List.Forall₂ SamePlace xs ys) :
    (sum xs).SamePlace (sum ys) :=
  List.rel_foldl (fun _ _ ha _ _ hb => ha.add hb) (.refl _) h

end

end Number

namespace Aggregate

/-- Two summaries are numerically equal. -/
structure SamePlaces (a b : Aggregate) : Prop where
  count : a.count = b.count
  sum : a.sum.SamePlace b.sum
  mean : a.mean.SamePlace b.mean
  least : a.least.SamePlace b.least
  greatest : a.greatest.SamePlace b.greatest

/-- The summaries of numerically equal numbers are numerically equal. -/
theorem samePlaces_ofList {xs ys : List Number} (h : List.Forall₂ Number.SamePlace xs ys) :
    (ofList xs).SamePlaces (ofList ys) where
  count := h.length_eq
  sum := Number.samePlace_sum h
  mean := by
    have hempty : xs.isEmpty = ys.isEmpty := by cases h <;> rfl
    simp only [ofList, hempty, h.length_eq]
    split
    · exact .refl _
    · exact (Number.samePlace_sum h).div _
  least := List.rel_foldl (fun _ _ ha _ _ hb => ha.min hb) (.refl _) h
  greatest := List.rel_foldl (fun _ _ ha _ _ hb => ha.max hb) (.refl _) h

end Aggregate

end LooseRecords
