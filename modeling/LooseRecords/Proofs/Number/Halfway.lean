import LooseRecords.Proofs.Number.Nearest
import LooseRecords.Proofs.Number.Shown

/-!
# Integers with more digits than a number holds

From `2 ^ 53` on the magnitudes are even whole numbers, so an integer that large lies between two
even neighbours, and so it does with further digits behind it. How it is rounded does not depend on
these digits, unless the integer lies halfway between its neighbours and is rounded down:
`Rank.nearest_append` and `Rank.nearest_append_of_halfway`.
-/

namespace LooseRecords

namespace Rank

/-! ## Magnitudes from `2 ^ 53` on -/

/-- A number between a magnitude and the next one has the former as its floor. -/
theorem floor_eq {rank n : Nat} (hlow : units rank ≤ n) (hhigh : n < units (rank + 1)) :
    floor n = rank := by
  have hle : rank ≤ floor n := le_floor_iff.2 hlow
  have hlt : ¬ rank + 1 ≤ floor n := fun h => absurd (le_floor_iff.1 h) (by omega)
  omega

/-- Whole binades further on, the magnitudes are the same ones times a power of two. -/
theorem units_add_mul_binade {rank : Nat} (h : binade ≤ rank) (k : Nat) :
    units (rank + k * binade) = units rank * 2 ^ k := by
  have hmod : (rank + k * binade) % binade = rank % binade := Nat.add_mul_mod_self_right ..
  have hdiv : (rank + k * binade) / binade = rank / binade + k :=
    Nat.add_mul_div_right _ _ (by decide)
  have hpos : 1 ≤ rank / binade := (Nat.one_le_div_iff (by decide)).2 h
  have hscale : rank / binade + k - 1 = rank / binade - 1 + k := by omega
  rw [units, units, if_neg (by omega), if_neg (by omega), hmod, hdiv, hscale, Nat.shiftLeft_eq,
    Nat.shiftLeft_eq, Nat.pow_add, Nat.mul_assoc]

/-- The rank of `2 ^ 53`, from which on every magnitude is an even whole number. -/
def firstEven : Nat := 1076 * binade

theorem units_firstEven : units firstEven = 2 ^ 53 * one := by decide +kernel

/-- From `2 ^ 53` on a magnitude is twice the magnitude that has half of its value. -/
theorem units_of_firstEven_le {rank : Nat} (h : firstEven ≤ rank) :
    units rank = 2 * units (rank - 1075 * binade) * one := by
  have htwice : 2 ^ 1075 = 2 * one := by decide +kernel
  have hbinade : binade ≤ rank - 1075 * binade := by
    rw [firstEven] at h
    omega
  have hsplit : rank = rank - 1075 * binade + 1075 * binade := by
    rw [firstEven] at h
    omega
  calc units rank = units (rank - 1075 * binade) * 2 ^ 1075 := by
        rw [← units_add_mul_binade hbinade, ← hsplit]
    _ = 2 * units (rank - 1075 * binade) * one := by
        rw [htwice]
        ring

theorem firstEven_le_floor {n : Nat} (h : 2 ^ 53 ≤ n) : firstEven ≤ floor (n * one) := by
  rw [le_floor_iff, units_firstEven]
  exact Nat.mul_le_mul_right _ h

/-- A whole number lies between two neighbouring magnitudes that are even. -/
structure Neighbours (n low high : Nat) : Prop where
  units_floor : units (floor (n * one)) = 2 * low * one
  units_succ : units (floor (n * one) + 1) = 2 * high * one
  le : 2 * low ≤ n
  lt : n < 2 * high

theorem exists_neighbours {n : Nat} (h : 2 ^ 53 ≤ n) : ∃ low high, Neighbours n low high := by
  have hfirst := firstEven_le_floor h
  have hlow := units_of_firstEven_le hfirst
  have hhigh := units_of_firstEven_le (Nat.le_succ_of_le hfirst)
  refine ⟨_, _, hlow, hhigh, ?_, ?_⟩
  · have hbelow := units_floor_le (n * one)
    rw [hlow] at hbelow
    exact Nat.le_of_mul_le_mul_right hbelow one_pos
  · have habove := lt_units_floor_succ (n * one)
    rw [hhigh] at habove
    exact Nat.lt_of_mul_lt_mul_right habove

/-! ## The middle between magnitudes -/

/-- A whole number lies in the middle between two magnitudes, of which the lower one is even. -/
def Halfway (n : Nat) : Prop :=
  ∃ rank, rank % 2 = 0 ∧ value rank + value (rank + 1) = 2 * n

theorem halfway_iff (n : Nat) :
    Halfway n ↔ floor (n * one) % 2 = 0 ∧
      units (floor (n * one)) + units (floor (n * one) + 1) = 2 * n * one := by
  have hunits : ∀ rank, value rank + value (rank + 1) = 2 * (n : ℚ) ↔
      units rank + units (rank + 1) = 2 * n * one := by
    intro rank
    have hone : (one : ℚ) ≠ 0 := by exact_mod_cast one_pos.ne'
    rw [value, value, ← add_div, div_eq_iff hone]
    exact_mod_cast Iff.rfl
  constructor
  · rintro ⟨rank, heven, hmiddle⟩
    rw [hunits] at hmiddle
    have hstep := units_lt_units_succ rank
    have hfloor : floor (n * one) = rank := by
      rw [Nat.mul_assoc] at hmiddle
      exact floor_eq (by omega) (by omega)
    rw [hfloor]
    exact ⟨heven, hmiddle⟩
  · rintro ⟨heven, hmiddle⟩
    exact ⟨_, heven, (hunits _).2 hmiddle⟩

/-- A magnitude does not lie in the middle between two others. -/
theorem not_halfway_of_units {rank n : Nat} (h : units rank = n * one) : ¬ Halfway n := by
  intro hhalf
  obtain ⟨-, hmiddle⟩ := (halfway_iff n).1 hhalf
  have hfloor : floor (n * one) = rank := by rw [← h, floor_units]
  have hstep := units_lt_units_succ rank
  rw [hfloor, Nat.mul_assoc, ← h] at hmiddle
  omega

/-- Up to `2 ^ 53` whole numbers are magnitudes. -/
theorem lt_of_halfway {n : Nat} (h : Halfway n) : 2 ^ 53 < n := by
  by_contra hle
  obtain ⟨rank, -, hrank⟩ := exists_units_eq n (by omega)
  exact not_halfway_of_units hrank h

namespace Neighbours

variable {n low high tail k : Nat}

theorem middle_eq (h : Neighbours n low high) :
    units (floor (n * one)) + units (floor (n * one) + 1) = (low + high) * (2 * one) := by
  rw [h.units_floor, h.units_succ]
  ring

theorem halfway_iff (h : Neighbours n low high) :
    Halfway n ↔ floor (n * one) % 2 = 0 ∧ low + high = n := by
  have hpos : 0 < 2 * one := Nat.mul_pos (by decide) one_pos
  have hdouble : 2 * n * one = n * (2 * one) := by ring
  rw [Rank.halfway_iff, h.middle_eq, hdouble, Nat.mul_left_inj hpos.ne']

/-- A whole number is rounded by the middle between its neighbours. -/
theorem nearest_eq (h : Neighbours n low high) :
    nearest (n * one) 1 =
      if n < low + high then floor (n * one)
      else if low + high < n then floor (n * one) + 1
      else floor (n * one) + floor (n * one) % 2 := by
  have hpos : 0 < 2 * one := Nat.mul_pos (by decide) one_pos
  have hdouble : 2 * (n * one) = n * (2 * one) := by ring
  simp only [nearest, Nat.div_one, Nat.mul_one, h.middle_eq, hdouble, Nat.mul_lt_mul_right hpos]

/-- Digits behind a whole number do not take it past its neighbours, as these are even. -/
theorem floor_append (h : Neighbours n low high) (hn : 2 ^ 53 ≤ n) (htail : tail < 2 ^ k) :
    floor ((n * 2 ^ k + tail) * one) = floor (n * one) + k * binade := by
  have hbinade : binade ≤ floor (n * one) := le_trans (by decide) (firstEven_le_floor hn)
  apply floor_eq
  · rw [units_add_mul_binade hbinade, h.units_floor, Nat.mul_right_comm]
    apply Nat.mul_le_mul_right
    calc 2 * low * 2 ^ k ≤ n * 2 ^ k := Nat.mul_le_mul_right _ h.le
      _ ≤ n * 2 ^ k + tail := Nat.le_add_right ..
  · rw [Nat.add_right_comm, units_add_mul_binade (Nat.le_succ_of_le hbinade), h.units_succ,
      Nat.mul_right_comm]
    apply Nat.mul_lt_mul_of_pos_right _ one_pos
    calc n * 2 ^ k + tail < (n + 1) * 2 ^ k := by rw [Nat.succ_mul]; omega
      _ ≤ 2 * high * 2 ^ k := Nat.mul_le_mul_right _ h.lt

theorem append (h : Neighbours n low high) (hn : 2 ^ 53 ≤ n) (htail : tail < 2 ^ k) :
    Neighbours (n * 2 ^ k + tail) (low * 2 ^ k) (high * 2 ^ k) := by
  have hbinade : binade ≤ floor (n * one) := le_trans (by decide) (firstEven_le_floor hn)
  constructor
  · rw [h.floor_append hn htail, units_add_mul_binade hbinade, h.units_floor]
    ring
  · rw [h.floor_append hn htail, Nat.add_right_comm,
      units_add_mul_binade (Nat.le_succ_of_le hbinade), h.units_succ]
    ring
  · calc 2 * (low * 2 ^ k) = 2 * low * 2 ^ k := by ring
      _ ≤ n * 2 ^ k := Nat.mul_le_mul_right _ h.le
      _ ≤ n * 2 ^ k + tail := Nat.le_add_right ..
  · calc n * 2 ^ k + tail < (n + 1) * 2 ^ k := by rw [Nat.succ_mul]; omega
      _ ≤ 2 * high * 2 ^ k := Nat.mul_le_mul_right _ h.lt
      _ = 2 * (high * 2 ^ k) := by ring

end Neighbours

/-! ## Digits behind a longer integer -/

section

variable {n m tail k : Nat}

theorem append_lt_iff (htail : tail < 2 ^ k) : n * 2 ^ k + tail < m * 2 ^ k ↔ n < m := by
  constructor
  · intro h
    exact Nat.lt_of_mul_lt_mul_right (Nat.lt_of_le_of_lt (Nat.le_add_right _ tail) h)
  · intro h
    calc n * 2 ^ k + tail < (n + 1) * 2 ^ k := by rw [Nat.succ_mul]; omega
      _ ≤ m * 2 ^ k := Nat.mul_le_mul_right _ h

theorem append_eq_iff (htail : tail < 2 ^ k) : m * 2 ^ k = n * 2 ^ k + tail ↔ m = n ∧ tail = 0 := by
  constructor
  · intro h
    have hle : ¬ n < m := by
      rw [← append_lt_iff htail]
      omega
    have hge : ¬ m < n := by
      rw [← Nat.mul_lt_mul_right (Nat.two_pow_pos k)]
      omega
    obtain rfl : m = n := by omega
    exact ⟨rfl, by omega⟩
  · rintro ⟨rfl, rfl⟩
    rfl

/-- In the middle between two magnitudes an integer is rounded down to the even one. -/
theorem nearest_of_halfway (h : Halfway n) : nearest (n * one) 1 = floor (n * one) := by
  obtain ⟨low, high, hneighbours⟩ := exists_neighbours (lt_of_halfway h).le
  obtain ⟨heven, hmiddle⟩ := hneighbours.halfway_iff.1 h
  rw [hneighbours.nearest_eq, if_neg (by omega), if_neg (by omega), heven, Nat.add_zero]

/-- Halfway between magnitudes stays halfway with zeros behind it, and with nothing else. -/
theorem halfway_append_iff (hn : 2 ^ 53 ≤ n) (htail : tail < 2 ^ k) :
    Halfway (n * 2 ^ k + tail) ↔ Halfway n ∧ tail = 0 := by
  obtain ⟨low, high, h⟩ := exists_neighbours hn
  have hparity : (floor (n * one) + k * binade) % 2 = floor (n * one) % 2 := by
    simp only [binade]
    omega
  rw [(h.append hn htail).halfway_iff, h.halfway_iff, h.floor_append hn htail, hparity,
    ← Nat.add_mul, append_eq_iff htail, and_assoc]

/-- Digits behind an integer of at least 54 bits have no part in how it is rounded, unless it lies
halfway between two magnitudes. -/
theorem nearest_append (hn : 2 ^ 53 ≤ n) (htail : tail < 2 ^ k) (hkept : Halfway n → tail = 0) :
    nearest ((n * 2 ^ k + tail) * one) 1 = nearest (n * one) 1 + k * binade := by
  obtain ⟨low, high, h⟩ := exists_neighbours hn
  have hparity : (floor (n * one) + k * binade) % 2 = floor (n * one) % 2 := by
    simp only [binade]
    omega
  rw [(h.append hn htail).nearest_eq, h.nearest_eq, h.floor_append hn htail, ← Nat.add_mul, hparity]
  rcases Nat.lt_trichotomy n (low + high) with hlt | rfl | hgt
  · rw [if_pos ((append_lt_iff htail).2 hlt), if_pos hlt]
  · -- Exactly in the middle. The digits may count only if the next magnitude is taken anyway.
    rw [if_neg (by omega), if_neg (Nat.lt_irrefl _), if_neg (Nat.lt_irrefl _)]
    rcases Nat.mod_two_eq_zero_or_one (floor ((low + high) * one)) with heven | hodd
    · rw [hkept (h.halfway_iff.2 ⟨heven, rfl⟩), if_neg (by omega), heven, Nat.add_zero,
        Nat.add_zero]
    · rw [hodd]
      split
      · exact Nat.add_right_comm ..
      · exact Nat.add_right_comm ..
  · have hnotBelow : ¬ n * 2 ^ k + tail < (low + high) * 2 ^ k := by
      rw [append_lt_iff htail]
      omega
    have habove : (low + high) * 2 ^ k < n * 2 ^ k + tail :=
      Nat.lt_of_lt_of_le (Nat.mul_lt_mul_of_pos_right hgt (Nat.two_pow_pos k))
        (Nat.le_add_right _ tail)
    rw [if_neg hnotBelow, if_pos habove, if_neg (by omega), if_pos hgt]
    exact Nat.add_right_comm ..

/-- If it does, they decide. -/
theorem nearest_append_of_halfway (h : Halfway n) (htail : tail < 2 ^ k) (hne : tail ≠ 0) :
    nearest ((n * 2 ^ k + tail) * one) 1 = nearest (n * one) 1 + k * binade + 1 := by
  have hn := (lt_of_halfway h).le
  obtain ⟨low, high, hneighbours⟩ := exists_neighbours hn
  obtain ⟨-, hmiddle⟩ := hneighbours.halfway_iff.1 h
  have hnotBelow : ¬ n * 2 ^ k + tail < (low + high) * 2 ^ k := by
    rw [append_lt_iff htail]
    omega
  have habove : (low + high) * 2 ^ k < n * 2 ^ k + tail := by
    rw [hmiddle]
    omega
  rw [(hneighbours.append hn htail).nearest_eq, ← Nat.add_mul, if_neg hnotBelow, if_pos habove,
    hneighbours.floor_append hn htail, nearest_of_halfway h]

end

end Rank

end LooseRecords
