import LooseRecords.Proofs.Number.Shortest
import Mathlib.Algebra.Order.Field.Power
import Mathlib.Data.Rat.Cast.Order
import Mathlib.Tactic.FieldSimp
import Mathlib.Tactic.Linarith
import Mathlib.Tactic.Positivity

/-!
# Decimals and magnitudes as rational numbers

What decimals and magnitudes are worth. `Decimal.rank_le_rank` says that rounding keeps the order of
decimals, so whatever lies between a decimal and the magnitude that it reads back as reads back as
that magnitude too: `Decimal.rank_between`.
-/

namespace LooseRecords

namespace Rank

/-- Rounding keeps the order of quotients. -/
theorem nearest_le_nearest {num num' : Nat} (den : Nat) (h : num ≤ num') :
    nearest num den ≤ nearest num' den := by
  have hfloor : floor (num / den) ≤ floor (num' / den) :=
    le_floor_iff.2 (Nat.le_trans (units_floor_le _) (Nat.div_le_div_right h))
  rcases Nat.lt_or_eq_of_le hfloor with hlt | heq
  · -- Between different magnitudes: one step above the lower one is at most the higher one.
    have hhigh := floor_le_nearest num' den
    have hlow : nearest num den ≤ floor (num / den) + 1 := by
      simp only [nearest]
      split
      · omega
      · split <;> omega
    omega
  · simp only [nearest, ← heq]
    split
    · split
      · exact Nat.le_refl _
      · split <;> omega
    · split
      · rw [if_neg (by omega), if_pos (by omega)]
      · split
        · omega
        · split <;> omega

/-- A magnitude as a rational number. -/
def value (rank : Nat) : ℚ := units rank / one

end Rank

namespace Decimal

/-- A decimal as a rational number. -/
def value (d : Decimal) : ℚ := d.digits * (10 : ℚ) ^ d.exponent

theorem value_eq (d : Decimal) : d.value = (d.numerator : ℚ) / d.denominator := by
  have hexponent : d.exponent = (d.exponent.toNat : Int) - ((-d.exponent).toNat : Int) := by omega
  rw [value, numerator, denominator, hexponent, zpow_sub₀ (by norm_num), zpow_natCast, zpow_natCast,
    ← hexponent]
  push_cast
  ring

/-- Decimals in order have ranks in order. -/
theorem rank_le_rank {d e : Decimal} (h : d.value ≤ e.value) : d.rank ≤ e.rank := by
  have hd : (0 : ℚ) < d.denominator := by exact_mod_cast d.denominator_pos
  have he : (0 : ℚ) < e.denominator := by exact_mod_cast e.denominator_pos
  rw [value_eq, value_eq, div_le_div_iff₀ hd he] at h
  have hcross : d.numerator * e.denominator ≤ e.numerator * d.denominator := by exact_mod_cast h
  have hranks : Rank.nearest (d.numerator * Rank.one) d.denominator ≤
      Rank.nearest (e.numerator * Rank.one) e.denominator :=
    calc Rank.nearest (d.numerator * Rank.one) d.denominator
        = Rank.nearest (d.numerator * Rank.one * e.denominator) (d.denominator * e.denominator) :=
          (Rank.nearest_mul_right e.denominator_pos ..).symm
      _ ≤ Rank.nearest (e.numerator * Rank.one * d.denominator)
            (d.denominator * e.denominator) := by
          apply Rank.nearest_le_nearest
          calc d.numerator * Rank.one * e.denominator
              = d.numerator * e.denominator * Rank.one := by ring
            _ ≤ e.numerator * d.denominator * Rank.one := Nat.mul_le_mul_right _ hcross
            _ = e.numerator * Rank.one * d.denominator := by ring
      _ = Rank.nearest (e.numerator * Rank.one) e.denominator := by
          rw [Nat.mul_comm d.denominator, Rank.nearest_mul_right d.denominator_pos]
  rw [rank_eq, rank_eq]
  exact min_le_min_right _ hranks

/-- Equal decimals have the same rank. -/
theorem rank_eq_of_value {d e : Decimal} (h : d.value = e.value) : d.rank = e.rank :=
  Nat.le_antisymm (rank_le_rank h.le) (rank_le_rank h.ge)

/-- The exact decimal of a magnitude is worth as much. -/
theorem value_exact (rank : Nat) : (Rank.exact rank).value = Rank.value rank := by
  have hone : (Rank.one : ℚ) ≠ 0 := by exact_mod_cast Rank.one_pos.ne'
  have hden : ((Rank.exact rank).denominator : ℚ) ≠ 0 := by
    exact_mod_cast (denominator_pos _).ne'
  rw [value_eq, Rank.value, div_eq_div_iff hden hone]
  exact_mod_cast Rank.numerator_exact rank

/-- Between a decimal and the magnitude that it reads back as all decimals read back as that
magnitude. -/
theorem rank_between {d e : Decimal} {rank : Nat} (hle : rank ≤ Rank.count) (hd : d.rank = rank)
    (h : d.value ≤ e.value ∧ e.value ≤ Rank.value rank ∨
      Rank.value rank ≤ e.value ∧ e.value ≤ d.value) : e.rank = rank := by
  have hexact := Rank.rank_exact hle
  rw [← value_exact] at h
  rcases h with ⟨hlow, hhigh⟩ | ⟨hlow, hhigh⟩
  · have hlow := rank_le_rank hlow
    have hhigh := rank_le_rank hhigh
    omega
  · have hlow := rank_le_rank hlow
    have hhigh := rank_le_rank hhigh
    omega

/-- A decimal that reads back as a lower magnitude lies below. -/
theorem value_lt_of_rank_lt {d : Decimal} {rank : Nat} (hle : rank ≤ Rank.count)
    (h : d.rank < rank) : d.value < Rank.value rank := by
  by_contra hge
  have hrank := rank_le_rank ((value_exact rank).le.trans (not_lt.1 hge))
  rw [Rank.rank_exact hle] at hrank
  omega

/-- A decimal that reads back as a higher magnitude lies above. -/
theorem lt_value_of_lt_rank {d : Decimal} {rank : Nat} (hle : rank ≤ Rank.count)
    (h : rank < d.rank) : Rank.value rank < d.value := by
  by_contra hge
  have hrank := rank_le_rank ((not_lt.1 hge).trans (value_exact rank).ge)
  rw [Rank.rank_exact hle] at hrank
  omega

end Decimal

end LooseRecords
