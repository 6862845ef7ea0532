import LooseRecords.Proofs.Number.Fewest
import LooseRecords.Proofs.Number.Spelled
import LooseRecords.Proofs.Value.Display

/-!
# Numbers that are displayed without an exponent

A number is displayed without an exponent if it is zero, or if its magnitude lies from `1e-6` up to,
and without, `1e21`: `Number.plain_displayNumeral_iff`. The layout looks at the place of the point
among the shortest digits, and this place tells on which side of a power of ten the magnitude lies.
-/

namespace LooseRecords

/-! ## Shapes of layouts -/

namespace Numeral

/-- A sign makes a numeral no less plain. -/
theorem plain_signed_iff (n : Numeral) (negative : Bool) : (n.signed negative).Plain ↔ n.Plain := by
  rw [← isPlain_iff, ← isPlain_iff]
  rfl

end Numeral

namespace Number.Layout

theorem plain_positionalNumeral {digits : List Char} (h : digits ≠ []) (keepsFraction : Bool)
    (point : Int) : (positionalNumeral keepsFraction digits point).Plain := by
  unfold positionalNumeral
  split
  case isTrue => exact .point (List.append_ne_nil_of_right_ne_nil _ h)
  case isFalse hpos =>
    split
    case isTrue hlt =>
      refine .point fun hnil => ?_
      rw [List.drop_eq_nil_iff] at hnil
      omega
    case isFalse =>
      cases keepsFraction with
      | false => exact .whole (List.append_ne_nil_of_left_ne_nil h _)
      | true => exact .point (List.cons_ne_nil _ _)

theorem not_plain_scientificNumeral (digits : List Char) (point : Int) :
    ¬ (scientificNumeral digits point).Plain := by
  rw [← Numeral.isPlain_iff]
  unfold scientificNumeral
  split <;> simp [Numeral.isPlain]

/-- A layout writes a plain numeral exactly if the point lies in its range. -/
theorem plain_shape_iff (layout : Layout) {digits : List Char} (h : digits ≠ []) (point : Int) :
    (layout.shape digits point).Plain ↔ layout.least ≤ point ∧ point ≤ layout.greatest := by
  rw [shape]
  split
  case isTrue hrange =>
    rw [Bool.and_eq_true, decide_eq_true_eq, decide_eq_true_eq] at hrange
    exact iff_of_true (plain_positionalNumeral h _ point) hrange
  case isFalse hrange =>
    rw [Bool.and_eq_true, decide_eq_true_eq, decide_eq_true_eq] at hrange
    exact iff_of_false (not_plain_scientificNumeral digits point) hrange

end Number.Layout

/-! ## The place of the point -/

namespace Decimal

open Number

/-- The point of a positive decimal stands behind its leading power of ten. -/
theorem value_bounds {d : Decimal} (h : d.digits ≠ 0) :
    (10 : ℚ) ^ ((Layout.digitsAndPoint d).2 - 1) ≤ d.value ∧
      d.value < (10 : ℚ) ^ (Layout.digitsAndPoint d).2 := by
  obtain ⟨length, hlength⟩ : ∃ length, (Nat.toDigits 10 d.digits).length = length + 1 :=
    ⟨_, (Nat.succ_pred_eq_of_pos (List.length_pos_iff.2 Nat.toDigits_ne_nil)).symm⟩
  have hpoint : (Layout.digitsAndPoint d).2 = (length + 1 : Nat) + d.exponent := by
    rw [← hlength]
    rfl
  have hlow : (10 : ℚ) ^ length ≤ d.digits := by
    exact_mod_cast pow_le_of_lt_length h (by omega)
  have hhigh : (d.digits : ℚ) < 10 ^ (length + 1) := by
    exact_mod_cast (Nat.length_toDigits_le_iff (b := 10) (by decide) (Nat.succ_pos length)).1 hlength.le
  have hpower : (0 : ℚ) < 10 ^ d.exponent := zpow_pos (by norm_num) _
  have hten : (10 : ℚ) ≠ 0 := by norm_num
  have hlead : (length + 1 : Nat) + d.exponent - 1 = (length : Int) + d.exponent := by omega
  rw [hpoint, hlead, zpow_add₀ hten, zpow_add₀ hten, zpow_natCast, zpow_natCast, value]
  exact ⟨mul_le_mul_of_nonneg_right hlow hpower.le, mul_lt_mul_of_pos_right hhigh hpower⟩

theorem value_power (place : Int) : value ⟨1, place⟩ = (10 : ℚ) ^ place := by
  rw [value, Nat.cast_one, one_mul]

/-- The point stands behind the place of a power of ten exactly if the magnitude is at least that
power, provided that this holds of the power itself. -/
theorem lt_point_iff {place : Int}
    (hplace : place < (Layout.digitsAndPoint (Rank.shortest .up (rank ⟨1, place⟩))).2) {rank : Nat}
    (hpos : 0 < rank) (hle : rank ≤ Rank.count) :
    place < (Layout.digitsAndPoint (Rank.shortest .up rank)).2 ↔
      Decimal.rank ⟨1, place⟩ ≤ rank := by
  obtain ⟨hlow, hhigh⟩ := value_bounds (Rank.digits_shortest_ne_zero .up hpos hle)
  have hrank := Rank.rank_shortest .up hle
  constructor
  · intro hlt
    have hpower : (10 : ℚ) ^ place ≤
        10 ^ ((Layout.digitsAndPoint (Rank.shortest .up rank)).2 - 1) :=
      zpow_le_zpow_right₀ (by norm_num) (by omega)
    have hvalue : value ⟨1, place⟩ ≤ (Rank.shortest .up rank).value :=
      (value_power place).le.trans (hpower.trans hlow)
    exact (rank_le_rank hvalue).trans hrank.le
  · intro hge
    by_contra hnot
    -- The magnitude lies below the power of ten and rounds to it, but then its point is that of the
    -- power.
    have hpower : (10 : ℚ) ^ (Layout.digitsAndPoint (Rank.shortest .up rank)).2 ≤ 10 ^ place :=
      zpow_le_zpow_right₀ (by norm_num) (by omega)
    have hvalue : (Rank.shortest .up rank).value ≤ value ⟨1, place⟩ :=
      hhigh.le.trans (hpower.trans (value_power place).ge)
    have heq : Decimal.rank ⟨1, place⟩ = rank :=
      Nat.le_antisymm hge (hrank.ge.trans (rank_le_rank hvalue))
    rw [heq] at hplace
    exact hnot hplace

end Decimal

/-! ## The range -/

/-- A magnitude is zero or lies from `1e-6` up to, and without, `1e21`. -/
def Rank.IsPositional (rank : Nat) : Prop :=
  rank = 0 ∨ Decimal.rank ⟨1, -6⟩ ≤ rank ∧ rank < Decimal.rank ⟨1, 21⟩

namespace Number

/-- A number without its sign. -/
def magnitude : Number → Number
  | .nan => .nan
  | .infinite _ => .infinite false
  | .finite _ rank => .finite false rank

/-- A number is zero or its magnitude lies from `1e-6` up to, and without, `1e21`. -/
def IsPositional (n : Number) : Prop :=
  n.isZero = true ∨
    (Decimal.number false ⟨1, -6⟩).le n.magnitude = true ∧
      n.magnitude.lt (Decimal.number false ⟨1, 21⟩) = true

instance : DecidablePred IsPositional := fun _ => inferInstanceAs (Decidable (_ ∨ _))

theorem isPositional_finite_iff (negative : Bool) (rank : Fin Rank.count) :
    IsPositional (.finite negative rank) ↔ Rank.IsPositional rank.val := by
  have hlow : (Decimal.number false ⟨1, -6⟩).place? = some (Decimal.rank ⟨1, -6⟩ : Int) := by
    decide +kernel
  have hhigh : (Decimal.number false ⟨1, 21⟩).place? = some (Decimal.rank ⟨1, 21⟩ : Int) := by
    decide +kernel
  have hplace : (finite false rank).place? = some (rank.val : Int) := rfl
  simp only [IsPositional, isZero_finite_iff, magnitude, le, lt, compare?, hlow, hhigh, hplace,
    Bool.or_eq_true, beq_iff_eq, Option.some.injEq, Int.compare_eq_lt, Int.compare_eq_eq]
  rw [← Int.le_iff_lt_or_eq, Int.ofNat_le, Int.ofNat_lt, Rank.IsPositional]

/-- Whole magnitudes below `10 ^ 21` lie in the range. -/
theorem isPositional_of_whole {rank : Nat}
    (h : (Rank.units rank % Rank.one = 0 &&
      Rank.units rank / Rank.one < Decimal.power 21) = true) : Rank.IsPositional rank := by
  rw [Bool.and_eq_true, decide_eq_true_eq, decide_eq_true_eq] at h
  obtain ⟨hmod, hlt⟩ := h
  have hunits := Nat.div_mul_cancel (Nat.dvd_of_mod_eq_zero hmod)
  have hlow : Rank.units (Decimal.rank ⟨1, -6⟩) ≤ Rank.one := by decide +kernel
  have hhigh : Rank.units (Decimal.rank ⟨1, 21⟩) = Decimal.power 21 * Rank.one := by decide +kernel
  generalize Rank.units rank / Rank.one = whole at hlt hunits
  rcases Nat.eq_zero_or_pos whole with rfl | hpos
  · rw [Nat.zero_mul, eq_comm, Rank.units_eq_zero_iff] at hunits
    exact .inl hunits
  · refine .inr ⟨?_, ?_⟩
    · rw [← Rank.units_le_units_iff, ← hunits]
      exact hlow.trans (Nat.le_mul_of_pos_left _ hpos)
    · rw [← Nat.not_le, ← Rank.units_le_units_iff, ← hunits, hhigh,
        Nat.mul_le_mul_right_iff Rank.one_pos]
      exact Nat.not_le.2 hlt

/-- The shortest digits of a positive magnitude have their point in the range of the display layout
exactly if the magnitude lies in the range. -/
theorem point_iff {rank : Nat} (hpos : 0 < rank) (hle : rank ≤ Rank.count) :
    (displayLayout.least ≤ (Layout.digitsAndPoint (Rank.shortest .up rank)).2 ∧
      (Layout.digitsAndPoint (Rank.shortest .up rank)).2 ≤ displayLayout.greatest) ↔
        Rank.IsPositional rank := by
  have hlow := @Decimal.lt_point_iff (-6) (by decide +kernel) rank hpos hle
  have hhigh := @Decimal.lt_point_iff 21 (by decide +kernel) rank hpos hle
  have hleast : displayLayout.least = -6 + 1 := rfl
  have hgreatest : displayLayout.greatest = 21 := rfl
  rw [Rank.IsPositional, or_iff_right hpos.ne', ← hlow, ← Nat.not_le, ← hhigh, not_lt, hleast, hgreatest,
    Int.add_one_le_iff]

/-- A number is displayed without an exponent exactly if it lies in the range. -/
theorem plain_displayNumeral_iff (negative : Bool) (rank : Fin Rank.count) :
    (displayNumeral negative rank.val).Plain ↔ Rank.IsPositional rank.val := by
  simp only [displayNumeral]
  split
  case isTrue h =>
    rw [Numeral.plain_signed_iff]
    exact iff_of_true (.whole Nat.toDigits_ne_nil) (isPositional_of_whole h)
  case isFalse h =>
    have hpos := displayNumeral.pos_of_not_whole h
    have hle : rank.val ≤ Rank.count := rank.isLt.le
    have hne := (Layout.digitsAndPoint_spec (Rank.digits_shortest_ne_zero .up hpos hle)).1.ne_nil
    have htie : displayLayout.tie = .up := rfl
    rw [Layout.numeral, Numeral.plain_signed_iff, htie, Layout.plain_shape_iff _ hne,
      point_iff hpos hle]

end Number

end LooseRecords
