import LooseRecords.Proofs.Number.Value

/-!
# Nearest numbers

What rounding is asked to do: `Rank.NearestTo` says that no magnitude is closer to a rational, and
that of two equally close ones it is the even one. Magnitudes from `Rank.count` on stand for
infinity, so a rational rounds to infinity if it is at least halfway beyond the greatest finite
magnitude. `Decimal.isNearest_number_iff` says that the number of a decimal is the nearest one.
-/

namespace LooseRecords

namespace Rank

theorem value_lt_value {r s : Nat} (h : r < s) : value r < value s := by
  have hone : (0 : ℚ) < one := by exact_mod_cast one_pos
  have hunits : (units r : ℚ) < units s := by exact_mod_cast units_lt_units h
  exact div_lt_div_of_pos_right hunits hone

/-! ## Closest magnitudes -/

/-- No magnitude is closer to a rational, and of two equally close ones it is the even one. -/
structure NearestTo (x : ℚ) (rank : Nat) : Prop where
  closest : ∀ other, |x - value rank| ≤ |x - value other|
  even : ∀ other, |x - value rank| = |x - value other| → rank % 2 ≤ other % 2

namespace NearestTo

/-- A closest magnitude has no other one between itself and the rational. -/
theorem not_between {x : ℚ} {r s : Nat} (hr : NearestTo x r) (hs : NearestTo x s) :
    s ≤ r + 1 := by
  by_contra hgap
  have hlow : value r < value (r + 1) := value_lt_value (Nat.lt_succ_self r)
  have hhigh : value (r + 1) < value s := value_lt_value (by omega)
  have hfromLow := hr.closest (r + 1)
  have hfromHigh := hs.closest (r + 1)
  rcases le_total x (value (r + 1)) with hx | hx
  · rw [abs_of_nonpos (by linarith : x - value s ≤ 0),
      abs_of_nonpos (by linarith : x - value (r + 1) ≤ 0)] at hfromHigh
    linarith
  · rw [abs_of_nonneg (by linarith : 0 ≤ x - value r),
      abs_of_nonneg (by linarith : 0 ≤ x - value (r + 1))] at hfromLow
    linarith

theorem le {x : ℚ} {r s : Nat} (hr : NearestTo x r) (hs : NearestTo x s) : s ≤ r := by
  by_contra h
  have hnext := not_between hr hs
  have hequal : |x - value r| = |x - value s| := le_antisymm (hr.closest s) (hs.closest r)
  have hlow := hr.even s hequal
  have hhigh := hs.even r hequal.symm
  omega

/-- A rational has one nearest magnitude. -/
theorem unique {x : ℚ} {r s : Nat} (hr : NearestTo x r) (hs : NearestTo x s) : r = s :=
  Nat.le_antisymm (le hs hr) (le hr hs)

variable {x : ℚ} {low : Nat}

/-- Beyond the neighbours of a rational every magnitude is further away than one of them. -/
theorem farther (hlow : value low ≤ x) (hhigh : x ≤ value (low + 1)) {other : Nat}
    (hne : other ≠ low) (hne' : other ≠ low + 1) :
    |x - value low| < |x - value other| ∨ |x - value (low + 1)| < |x - value other| := by
  rcases Nat.lt_or_gt_of_ne hne with hlt | hgt
  · have hvalue := value_lt_value hlt
    left
    rw [abs_of_nonneg (by linarith), abs_of_nonneg (by linarith)]
    linarith
  · have hvalue : value (low + 1) < value other := value_lt_value (by omega)
    right
    rw [abs_of_nonpos (by linarith), abs_of_nonpos (by linarith)]
    linarith

/-- One of the neighbours of a rational, if it is closer than the other one or as close and even. -/
theorem of_neighbours (hlow : value low ≤ x) (hhigh : x ≤ value (low + 1)) {near far : Nat}
    (hpair : near = low ∧ far = low + 1 ∨ near = low + 1 ∧ far = low)
    (h : |x - value near| < |x - value far| ∨
      |x - value near| = |x - value far| ∧ near % 2 = 0) : NearestTo x near := by
  have hle : |x - value near| ≤ |x - value far| := h.elim le_of_lt fun h => h.1.le
  have hother : ∀ other, other = near ∨ other = far ∨ |x - value near| < |x - value other| := by
    intro other
    by_cases hneighbour : other = low ∨ other = low + 1
    · omega
    · obtain ⟨hne, hne'⟩ := not_or.1 hneighbour
      have hfarther := farther hlow hhigh hne hne'
      rcases hpair with ⟨rfl, rfl⟩ | ⟨rfl, rfl⟩
      · exact .inr (.inr (hfarther.elim id hle.trans_lt))
      · exact .inr (.inr (hfarther.elim hle.trans_lt id))
  constructor
  · intro other
    rcases hother other with rfl | rfl | hfarther
    · exact le_rfl
    · exact hle
    · exact hfarther.le
  · intro other hequal
    rcases hother other with rfl | rfl | hfarther
    · exact le_rfl
    · rcases h with hcloser | ⟨-, heven⟩
      · exact absurd hequal hcloser.ne
      · omega
    · exact absurd hequal hfarther.ne

end NearestTo

/-- Rounding finds the nearest magnitude of a quotient. -/
theorem nearestTo_nearest (num : Nat) {den : Nat} (hden : 0 < den) :
    NearestTo ((num : ℚ) / den) (nearest (num * one) den) := by
  have hone : (0 : ℚ) < one := by exact_mod_cast one_pos
  have hden' : (0 : ℚ) < den := by exact_mod_cast hden
  obtain ⟨low, hfloor⟩ : ∃ low, low = floor (num * one / den) := ⟨_, rfl⟩
  -- The quotient lies between two neighbouring magnitudes.
  have hlow : value low ≤ (num : ℚ) / den := by
    have hunits : units low * den ≤ num * one := by
      rw [hfloor]
      exact (Nat.le_div_iff_mul_le hden).1 (units_floor_le _)
    rw [value, div_le_div_iff₀ hone hden']
    exact_mod_cast hunits
  have hhigh : (num : ℚ) / den ≤ value (low + 1) := by
    have hunits : num * one ≤ units (low + 1) * den := by
      rw [hfloor]
      exact ((Nat.div_lt_iff_lt_mul hden).1 (lt_units_floor_succ _)).le
    rw [value, div_le_div_iff₀ hden' hone]
    exact_mod_cast hunits
  -- On which side of the middle it lies is decided without division.
  have hmiddle : (num : ℚ) / den - value low - (value (low + 1) - (num : ℚ) / den) =
      ((2 * (num * one) : Nat) - ((units low + units (low + 1)) * den : Nat) : ℚ) /
        (den * one) := by
    rw [value, value]
    field_simp
    push_cast
    ring
  have hpos : (0 : ℚ) < den * one := mul_pos hden' hone
  have hbelow : |(num : ℚ) / den - value low| = (num : ℚ) / den - value low :=
    abs_of_nonneg (sub_nonneg.2 hlow)
  have habove : |(num : ℚ) / den - value (low + 1)| = value (low + 1) - (num : ℚ) / den := by
    rw [abs_of_nonpos (sub_nonpos.2 hhigh), neg_sub]
  simp only [nearest, ← hfloor]
  split
  case isTrue hless =>
    have hcast : ((2 * (num * one) : Nat) : ℚ) < ((units low + units (low + 1)) * den : Nat) := by
      exact_mod_cast hless
    have hsign := div_neg_of_neg_of_pos (sub_neg.2 hcast) hpos
    refine .of_neighbours hlow hhigh (.inl ⟨rfl, rfl⟩) (.inl ?_)
    rw [hbelow, habove]
    linarith
  case isFalse hnotLess =>
  split
  case isTrue hmore =>
    have hcast : (((units low + units (low + 1)) * den : Nat) : ℚ) < (2 * (num * one) : Nat) := by
      exact_mod_cast hmore
    have hsign := div_pos (sub_pos.2 hcast) hpos
    refine .of_neighbours hlow hhigh (.inr ⟨rfl, rfl⟩) (.inl ?_)
    rw [hbelow, habove]
    linarith
  case isFalse hnotMore =>
    have htie : 2 * (num * one) = (units low + units (low + 1)) * den := by omega
    rw [htie, sub_self, zero_div] at hmiddle
    have hequal : |(num : ℚ) / den - value low| = |(num : ℚ) / den - value (low + 1)| := by
      rw [hbelow, habove]
      linarith
    rcases Nat.mod_two_eq_zero_or_one low with heven | hodd
    · rw [heven, Nat.add_zero]
      exact .of_neighbours hlow hhigh (.inl ⟨rfl, rfl⟩) (.inr ⟨hequal, heven⟩)
    · rw [hodd]
      exact .of_neighbours hlow hhigh (.inr ⟨rfl, rfl⟩) (.inr ⟨hequal.symm, by omega⟩)

theorem nearestTo_natCast (n : Nat) : NearestTo n (nearest (n * one) 1) := by
  have hnearest := nearestTo_nearest n Nat.one_pos
  rwa [Nat.cast_one, div_one] at hnearest

end Rank

/-! ## Nearest numbers -/

/-- The number nearest to a rational magnitude with a sign. -/
def Number.IsNearest (negative : Bool) (x : ℚ) (n : Number) : Prop :=
  ∃ rank, Rank.NearestTo x rank ∧ n = ofRank negative rank

/-- Ranks from that of infinity on make the same number. -/
theorem Number.ofRank_min (negative : Bool) (rank : Nat) :
    ofRank negative (Nat.min rank Rank.count) = ofRank negative rank := by
  show ofRank negative (Min.min rank Rank.count) = ofRank negative rank
  rcases Nat.lt_or_ge rank Rank.count with hlt | hge
  · rw [Nat.min_eq_left hlt.le]
  · have hcount : ¬ Rank.count < Rank.count := Nat.lt_irrefl _
    rw [Nat.min_eq_right hge, ofRank, dif_neg hcount, ofRank, dif_neg (Nat.not_lt.2 hge)]

/-- The number of a decimal is the nearest one. -/
theorem Decimal.isNearest_number_iff (d : Decimal) (negative : Bool) (n : Number) :
    n.IsNearest negative d.value ↔ n = d.number negative := by
  have hnearest : Rank.NearestTo d.value (Rank.nearest (d.numerator * Rank.one) d.denominator) := by
    rw [value_eq]
    exact Rank.nearestTo_nearest d.numerator d.denominator_pos
  have hnumber : d.number negative =
      Number.ofRank negative (Rank.nearest (d.numerator * Rank.one) d.denominator) := by
    rw [number, rank_eq, Number.ofRank_min]
  rw [hnumber]
  constructor
  · rintro ⟨rank, hrank, rfl⟩
    rw [hrank.unique hnearest]
  · rintro rfl
    exact ⟨_, hnearest, rfl⟩

end LooseRecords
