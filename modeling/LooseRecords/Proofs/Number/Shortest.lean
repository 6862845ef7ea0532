import LooseRecords.Proofs.Number.Rounding

/-!
# Shortest decimals read back

A magnitude is written by a decimal that need not be equal to it. `Rank.rank_shortest` says that
the decimal which is found always reads back as the magnitude, so nothing is lost in writing it.
-/

namespace LooseRecords

namespace Decimal

/-- The chosen neighbour is one of the two. -/
theorem nearer_eq_or (tie : Tie) (exact step low : Nat) :
    nearer tie exact step low = low ∨ nearer tie exact step low = low + 1 := by
  simp only [nearer]
  split
  · exact .inl rfl
  · split
    · exact .inr rfl
    · cases tie with
      | up => exact .inr rfl
      | even =>
        show low + low % 2 = low ∨ low + low % 2 = low + 1
        omega

end Decimal

namespace Rank

/-- The exact decimal of a magnitude is the magnitude: `5 ^ 1074 * 2 ^ 1074` is its denominator. -/
theorem numerator_exact (rank : Nat) :
    (exact rank).numerator * one = units rank * (exact rank).denominator := by
  have hscale : Nat.pow 5 1074 * one = 10 ^ 1074 := by decide +kernel
  have hpositive : (exact rank).exponent.toNat = 0 := rfl
  have hnegative : (-(exact rank).exponent).toNat = 1074 := rfl
  have hden : (exact rank).denominator = 10 ^ 1074 := by rw [Decimal.denominator, hnegative]
  rw [hden, Decimal.numerator, hpositive, Nat.pow_zero, Nat.mul_one, exact, Nat.mul_assoc, hscale]

/-- The exact decimal of a magnitude reads back as it. -/
theorem rank_exact {rank : Nat} (h : rank ≤ count) : (exact rank).rank = rank :=
  Decimal.rank_of_units (numerator_exact rank) h

/-- A decimal that is found on a grid reads back as the magnitude. -/
theorem rank_onGrid? {tie : Decimal.Tie} {rank dropped : Nat} {d : Decimal}
    (h : onGrid? tie rank dropped = some d) : d.rank = rank := by
  simp only [onGrid?] at h
  split at h
  case isTrue hboth =>
    rw [Bool.and_eq_true, beq_iff_eq, beq_iff_eq] at hboth
    cases h
    rcases Decimal.nearer_eq_or tie (exact rank).digits (Decimal.power dropped)
      ((exact rank).digits / Decimal.power dropped) with hnear | hnear
    · rw [hnear]
      exact hboth.1
    · rw [hnear]
      exact hboth.2
  case isFalse =>
    split at h
    case isTrue hlow =>
      cases h
      exact beq_iff_eq.1 hlow
    case isFalse =>
      split at h
      case isTrue hhigh =>
        cases h
        exact beq_iff_eq.1 hhigh
      case isFalse => cases h

/-- The shortest decimal of a magnitude reads back as it. -/
theorem rank_shortest (tie : Decimal.Tie) {rank : Nat} (h : rank ≤ count) :
    (shortest tie rank).rank = rank := by
  simp only [shortest]
  cases hfound : (List.range (Nat.toDigits 10 (exact rank).digits).length).findSome? fun kept =>
      onGrid? tie rank ((Nat.toDigits 10 (exact rank).digits).length - (kept + 1)) with
  -- Nothing found: the exact decimal.
  | none => exact rank_exact h
  | some d =>
    obtain ⟨kept, -, hgrid⟩ := List.exists_of_findSome?_eq_some hfound
    exact rank_onGrid? hgrid

/-- The shortest decimal of a positive magnitude has a digit that is not zero. -/
theorem digits_shortest_ne_zero (tie : Decimal.Tie) {rank : Nat} (hpos : 0 < rank)
    (h : rank ≤ count) : (shortest tie rank).digits ≠ 0 := by
  intro hzero
  have hrank := rank_shortest tie h
  rw [Decimal.rank, if_pos hzero] at hrank
  omega

end Rank

end LooseRecords
