import LooseRecords.Number.Decimal
import Mathlib.Tactic.Ring

/-!
# Rounding of decimals

`Decimal.rank` takes short cuts for very great and very small decimals. `Decimal.rank_eq` says that
it rounds the quotient that the decimal is all the same, and `Decimal.rank_congr` that therefore
only the quotient counts.
-/

namespace LooseRecords

namespace Rank

theorem one_pos : 0 < one := by decide +kernel

theorem units_eq_zero_iff (rank : Nat) : units rank = 0 ↔ rank = 0 := by
  constructor
  · intro h
    have hfloor := floor_units rank
    rw [h] at hfloor
    exact hfloor.symm
  · intro h
    subst h
    rfl

/-! ## Rounding of quotients -/

/-- `floor` finds the greatest rank whose magnitude is at most `n` steps. -/
theorem le_floor_iff {rank n : Nat} : rank ≤ floor n ↔ units rank ≤ n := by
  constructor
  · intro h
    exact Nat.le_trans (units_le_units_iff.2 h) (units_floor_le n)
  · intro h
    by_cases hle : rank ≤ floor n
    · exact hle
    · -- A greater rank is at least the next one, whose magnitude is past `n`.
      have hsucc : units (floor n + 1) ≤ units rank := units_le_units_iff.2 (by omega)
      have hlt := lt_units_floor_succ n
      omega

/-- Rounding depends on the quotient alone. -/
theorem nearest_mul_right {k : Nat} (hk : 0 < k) (num den : Nat) :
    nearest (num * k) (den * k) = nearest num den := by
  have hquotient : num * k / (den * k) = num / den := Nat.mul_div_mul_right num den hk
  have hmiddle : ∀ sum : Nat, sum * (den * k) = sum * den * k := fun sum => by ring
  have hdouble : 2 * (num * k) = 2 * num * k := by ring
  simp only [nearest, hquotient, hmiddle, hdouble, Nat.mul_lt_mul_right hk]

/-- A quotient rounds at least to the magnitude below it. -/
theorem floor_le_nearest (num den : Nat) : floor (num / den) ≤ nearest num den := by
  simp only [nearest]
  split
  · exact Nat.le_refl _
  · split <;> omega

/-- A quotient that is at least a magnitude rounds at least to that magnitude. -/
theorem le_nearest {rank num den : Nat} (hden : 0 < den) (h : units rank * den ≤ num) :
    rank ≤ nearest num den :=
  calc rank ≤ floor (num / den) := le_floor_iff.2 ((Nat.le_div_iff_mul_le hden).2 h)
    _ ≤ nearest num den := floor_le_nearest num den

/-- A quotient below half a step rounds to zero. -/
theorem nearest_eq_zero {num den : Nat} (h : 2 * num < den) : nearest num den = 0 := by
  have hquotient : num / den = 0 := Nat.div_eq_of_lt (by omega)
  have hfloor : floor 0 = 0 := by decide
  have hmiddle : units 0 + units (0 + 1) = 1 := by decide
  simp only [nearest, hquotient, hfloor, hmiddle, Nat.one_mul, if_pos h]

end Rank

namespace Decimal

/-! ## Decimals as quotients -/

/-- The numerator of a decimal as a quotient of naturals. -/
def numerator (d : Decimal) : Nat := d.digits * 10 ^ d.exponent.toNat

/-- The denominator of a decimal as a quotient of naturals. -/
def denominator (d : Decimal) : Nat := 10 ^ (-d.exponent).toNat

theorem denominator_pos (d : Decimal) : 0 < d.denominator := Nat.pow_pos (by decide)

/-- Decimals from `10 ^ 309` on round to infinity. -/
theorem count_le_nearest {digits e : Nat} (hdigits : digits ≠ 0) (he : 309 ≤ e) :
    Rank.count ≤ Rank.nearest (digits * 10 ^ e * Rank.one) 1 := by
  have hleast : Rank.units Rank.count ≤ 10 ^ 309 * Rank.one := by decide +kernel
  refine Rank.le_nearest Nat.one_pos ?_
  calc Rank.units Rank.count * 1 ≤ 1 * 10 ^ 309 * Rank.one := by omega
    _ ≤ digits * 10 ^ e * Rank.one :=
        Nat.mul_le_mul_right _ (Nat.mul_le_mul (Nat.pos_of_ne_zero hdigits)
          (Nat.pow_le_pow_right (by decide) he))

/-- Decimals below `10 ^ (-324)` round to zero. -/
theorem nearest_eq_zero {digits e : Nat} (he : Nat.log2 digits + 325 ≤ e) :
    Rank.nearest (digits * Rank.one) (10 ^ e) = 0 := by
  have hgreatest : 4 * Rank.one ≤ 10 ^ 325 := by decide +kernel
  apply Rank.nearest_eq_zero
  have hdigits : 2 * digits < 4 * 2 ^ Nat.log2 digits := by
    have h : digits < 2 ^ (Nat.log2 digits + 1) := Nat.lt_log2_self
    rw [Nat.pow_succ] at h
    omega
  calc 2 * (digits * Rank.one) = 2 * digits * Rank.one := by ring
    _ < 4 * 2 ^ Nat.log2 digits * Rank.one :=
        Nat.mul_lt_mul_of_pos_right hdigits Rank.one_pos
    _ = 2 ^ Nat.log2 digits * (4 * Rank.one) := by ring
    _ ≤ 10 ^ Nat.log2 digits * 10 ^ 325 :=
        Nat.mul_le_mul (Nat.pow_le_pow_left (by decide) _) hgreatest
    _ = 10 ^ (Nat.log2 digits + 325) := by rw [Nat.pow_add]
    _ ≤ 10 ^ e := Nat.pow_le_pow_right (by decide) he

/-- The rank of a decimal is that of its quotient. -/
theorem rank_eq (d : Decimal) :
    d.rank = Nat.min (Rank.nearest (d.numerator * Rank.one) d.denominator) Rank.count := by
  obtain ⟨digits, exponent⟩ := d
  unfold rank
  split
  case isTrue hdigits =>
    have hzero : digits = 0 := hdigits
    have hnum : numerator ⟨digits, exponent⟩ * Rank.one = 0 := by simp [numerator, hzero]
    rw [hnum, Rank.nearest_eq_zero (denominator_pos _)]
    rfl
  case isFalse hdigits =>
    cases exponent with
    | ofNat e =>
      show (if 310 ≤ e then _ else _) =
        Nat.min (Rank.nearest (digits * 10 ^ e * Rank.one) (10 ^ (-(e : Int)).toNat)) Rank.count
      have hden : (-(e : Int)).toNat = 0 := by omega
      rw [hden]
      split
      -- The short cut to infinity, then the short cut to zero.
      case isTrue he => exact (Nat.min_eq_right (count_le_nearest hdigits (by omega))).symm
      case isFalse => rfl
    | negSucc e =>
      show (if digits.log2 + 325 ≤ e + 1 then _ else _) =
        Nat.min (Rank.nearest (digits * 1 * Rank.one) (10 ^ (e + 1))) Rank.count
      rw [Nat.mul_one]
      split
      case isTrue he =>
        rw [nearest_eq_zero he]
        rfl
      case isFalse => rfl

/-- The rank of a decimal without a fraction. -/
theorem rank_ofNat (digits e : Nat) :
    rank ⟨digits, .ofNat e⟩ = min (Rank.nearest (digits * 10 ^ e * Rank.one) 1) Rank.count := by
  have hden : denominator ⟨digits, .ofNat e⟩ = 1 := by
    have hexponent : (-(e : Int)).toNat = 0 := by omega
    show 10 ^ (-(e : Int)).toNat = 1
    rw [hexponent, Nat.pow_zero]
  rw [rank_eq, hden]
  rfl

/-- A decimal that is equal to a magnitude has its rank. -/
theorem rank_of_units {d : Decimal} {rank : Nat}
    (h : d.numerator * Rank.one = Rank.units rank * d.denominator) (hle : rank ≤ Rank.count) :
    d.rank = rank := by
  rw [rank_eq, h, Rank.nearest_units d.denominator_pos]
  exact Nat.min_eq_left hle

/-- Decimals that are the same quotient have the same rank. -/
theorem rank_congr {d e : Decimal}
    (h : d.numerator * e.denominator = e.numerator * d.denominator) : d.rank = e.rank := by
  have hcross : d.numerator * Rank.one * e.denominator = e.numerator * Rank.one * d.denominator :=
    calc d.numerator * Rank.one * e.denominator
        = d.numerator * e.denominator * Rank.one := by ring
      _ = e.numerator * d.denominator * Rank.one := by rw [h]
      _ = e.numerator * Rank.one * d.denominator := by ring
  rw [rank_eq, rank_eq, ← Rank.nearest_mul_right e.denominator_pos, hcross,
    Nat.mul_comm d.denominator, Rank.nearest_mul_right d.denominator_pos]

/-- Zeros at the end of the digits count as powers of ten. -/
theorem rank_mul_pow (digits k : Nat) (exponent : Int) :
    rank ⟨digits * 10 ^ k, exponent⟩ = rank ⟨digits, exponent + k⟩ := by
  apply rank_congr
  have hexponents : k + exponent.toNat + (-(exponent + k)).toNat =
      (exponent + k).toNat + (-exponent).toNat := by omega
  calc digits * 10 ^ k * 10 ^ exponent.toNat * 10 ^ (-(exponent + k)).toNat
      = digits * 10 ^ (k + exponent.toNat + (-(exponent + k)).toNat) := by ring
    _ = digits * 10 ^ ((exponent + k).toNat + (-exponent).toNat) := by rw [hexponents]
    _ = digits * 10 ^ (exponent + k).toNat * 10 ^ (-exponent).toNat := by ring

end Decimal

end LooseRecords
