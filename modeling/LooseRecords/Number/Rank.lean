/-!
# Ranks of binary magnitudes

The non-negative double-precision numbers are a strictly increasing sequence, and a magnitude is
named by its place in it: rank `0` is zero, rank `1` the least positive magnitude `2 ^ (-1074)`,
rank `count` stands for infinity. Counting in steps of `2 ^ (-1074)` every magnitude is a natural
number, so rounding a quotient to the nearest magnitude is exact integer arithmetic.

Main statements: `units_floor_le` and `lt_units_floor_succ` place a natural number between two
neighbouring magnitudes, `units_le_units_iff` says that ranks and magnitudes have one order, and
`nearest_units` that rounding keeps what needs no rounding.
-/

namespace LooseRecords

namespace Rank

/-- How many magnitudes there are from one power of two to the next: `2 ^ 52`. -/
def binade : Nat := 4503599627370496

/-- The number of finite magnitudes; as a rank, it stands for infinity. -/
def count : Nat := 2047 * binade

/-- How many steps of `2 ^ (-1074)` make one. -/
def one : Nat := 1 <<< 1074

/-- The magnitude of a rank, counted in steps of `2 ^ (-1074)`. -/
def units (rank : Nat) : Nat :=
  if rank < binade then rank else (binade + rank % binade) <<< (rank / binade - 1)

/-- The greatest rank whose magnitude is at most `n` steps. -/
def floor (n : Nat) : Nat :=
  let scale := Nat.log2 n - 52
  scale * binade + n >>> scale

/-- The rank of the magnitude nearest to `num / den` steps; of two equally near ones the even
rank. Ranks beyond `count` mean that the quotient rounds to infinity. -/
def nearest (num den : Nat) : Nat :=
  let low := floor (num / den)
  let middle := (units low + units (low + 1)) * den
  if 2 * num < middle then low
  else if middle < 2 * num then low + 1
  else low + low % 2

/-! ## Magnitudes and ranks -/

/-- The rank made of a scale and a significand of at most 53 bits names that significand times a
power of two. The significand `2 ^ 53` is the first one of the next scale. -/
theorem units_of_significand {scale significand : Nat} (h : significand ≤ 2 * binade)
    (hs : scale = 0 ∨ binade ≤ significand) :
    units (scale * binade + significand) = significand <<< scale := by
  unfold units
  by_cases hlow : significand < binade
  · obtain rfl : scale = 0 := by omega
    rw [Nat.zero_mul, Nat.zero_add, if_pos hlow, Nat.shiftLeft_zero]
  · have hhigh : ¬ scale * binade + significand < binade := by omega
    rw [if_neg hhigh]
    by_cases htop : significand = 2 * binade
    · subst htop
      have hmod : (scale * binade + 2 * binade) % binade = 0 := by
        rw [← Nat.add_mul, Nat.mul_mod_left]
      have hdiv : (scale * binade + 2 * binade) / binade = scale + 2 := by
        rw [← Nat.add_mul, Nat.mul_div_cancel _ (by decide)]
      rw [hmod, hdiv]
      exact Nat.shiftLeft_succ_inside binade scale
    · have hmod : binade + (scale * binade + significand) % binade = significand := by
        simp only [binade] at *
        omega
      have hdiv : (scale * binade + significand) / binade = scale + 1 := by
        simp only [binade] at *
        omega
      rw [hmod, hdiv, Nat.add_sub_cancel]

/-- A natural number cut to its leading 53 bits: the significand that is left fits, and it is full
unless nothing was cut. -/
theorem significand_bounds (n : Nat) :
    n >>> (Nat.log2 n - 52) < 2 * binade ∧
      (Nat.log2 n - 52 = 0 ∨ binade ≤ n >>> (Nat.log2 n - 52)) := by
  rw [Nat.shiftRight_eq_div_pow]
  have hfull : binade = 2 ^ 52 := rfl
  constructor
  · rw [Nat.div_lt_iff_lt_mul (Nat.two_pow_pos _), hfull, ← Nat.pow_succ', ← Nat.pow_add]
    exact Nat.lt_of_lt_of_le Nat.lt_log2_self (Nat.pow_le_pow_right (by omega) (by omega))
  · by_cases h : Nat.log2 n ≤ 52
    · left; omega
    · right
      have hn : n ≠ 0 := by
        rintro rfl
        simp at h
      have hscale : 52 + (Nat.log2 n - 52) = Nat.log2 n := by omega
      rw [Nat.le_div_iff_mul_le (Nat.two_pow_pos _), hfull, ← Nat.pow_add, hscale]
      exact Nat.log2_self_le hn

/-- The magnitude below a natural number is that number cut to its leading 53 bits. -/
theorem units_floor (n : Nat) :
    units (floor n) = n >>> (Nat.log2 n - 52) <<< (Nat.log2 n - 52) :=
  units_of_significand (Nat.le_of_lt (significand_bounds n).1) (significand_bounds n).2

/-- The next magnitude is one step of the significand above. -/
theorem units_floor_succ (n : Nat) :
    units (floor n + 1) = (n >>> (Nat.log2 n - 52) + 1) <<< (Nat.log2 n - 52) := by
  have h := significand_bounds n
  simp only [floor, Nat.add_assoc]
  exact units_of_significand h.1 (h.2.imp_right Nat.le_succ_of_le)

/-- The magnitude of `floor n` is at most `n` steps. -/
theorem units_floor_le (n : Nat) : units (floor n) ≤ n := by
  rw [units_floor, Nat.shiftLeft_eq, Nat.shiftRight_eq_div_pow]
  exact Nat.div_mul_le_self n _

/-- The magnitude after that of `floor n` is more than `n` steps. -/
theorem lt_units_floor_succ (n : Nat) : n < units (floor n + 1) := by
  rw [units_floor_succ, Nat.shiftLeft_eq, Nat.shiftRight_eq_div_pow, Nat.mul_comm]
  exact Nat.lt_mul_div_succ n (Nat.two_pow_pos _)

/-- Neighbouring ranks name different magnitudes, the lower rank the lower one. -/
theorem units_lt_units_succ (rank : Nat) : units rank < units (rank + 1) := by
  obtain ⟨scale, significand, hr, hlt, hs⟩ : ∃ scale significand,
      rank = scale * binade + significand ∧ significand < 2 * binade ∧
        (scale = 0 ∨ binade ≤ significand) := by
    simp only [binade]
    by_cases h : rank < 4503599627370496
    · exact ⟨0, rank, by omega, by omega, .inl rfl⟩
    · exact ⟨rank / 4503599627370496 - 1, 4503599627370496 + rank % 4503599627370496,
        by omega, by omega, .inr (by omega)⟩
  rw [hr, units_of_significand (Nat.le_of_lt hlt) hs, Nat.add_assoc,
    units_of_significand hlt (hs.imp_right Nat.le_succ_of_le), Nat.shiftLeft_eq, Nat.shiftLeft_eq]
  exact Nat.mul_lt_mul_of_pos_right (Nat.lt_succ_self _) (Nat.two_pow_pos _)

/-- Magnitudes grow with their ranks. -/
theorem units_lt_units {r s : Nat} (h : r < s) : units r < units s := by
  induction h with
  | refl => exact units_lt_units_succ r
  | step _ ih => exact Nat.lt_trans ih (units_lt_units_succ _)

/-- Ranks are ordered as their magnitudes are. -/
theorem units_le_units_iff {r s : Nat} : units r ≤ units s ↔ r ≤ s := by
  constructor
  · intro h
    rcases Nat.lt_or_ge s r with hlt | hge
    · exact absurd (units_lt_units hlt) (by omega)
    · exact hge
  · intro h
    rcases Nat.lt_or_eq_of_le h with hlt | rfl
    · exact Nat.le_of_lt (units_lt_units hlt)
    · exact Nat.le_refl _

/-- A magnitude is its own floor. -/
theorem floor_units (rank : Nat) : floor (units rank) = rank := by
  have h1 := units_floor_le (units rank)
  have h2 := lt_units_floor_succ (units rank)
  have h3 : floor (units rank) ≤ rank := units_le_units_iff.1 h1
  have h4 : ¬ floor (units rank) + 1 ≤ rank := fun h => by
    have := units_le_units_iff.2 h
    omega
  omega

/-- A quotient that is a magnitude is nearest to itself. -/
theorem nearest_units {den : Nat} (h : 0 < den) (rank : Nat) :
    nearest (units rank * den) den = rank := by
  have hlow : floor (units rank * den / den) = rank := by
    rw [Nat.mul_div_cancel _ h, floor_units]
  have hlt : 2 * (units rank * den) < (units rank + units (rank + 1)) * den := by
    have hstep := units_lt_units_succ rank
    rw [← Nat.mul_assoc]
    exact Nat.mul_lt_mul_of_pos_right (by omega) h
  simp only [nearest, hlow, if_pos hlt]

end Rank

end LooseRecords
