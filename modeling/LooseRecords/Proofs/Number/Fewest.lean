import LooseRecords.Proofs.Number.Layout
import LooseRecords.Proofs.Number.Value

/-!
# The fewest digits that read back

`Rank.shortest` looks for a decimal that reads back as a magnitude, on the coarsest grid first.
`Decimal.shortest_digitsAndPoint` says that the digits which it finds are as few as those of any
decimal that reads back, whatever its power of ten, and that among the decimals of as many digits it
is the nearest to the magnitude.
-/

namespace LooseRecords

namespace Decimal

/-! ## Digits with a point -/

/-- The decimal `0.ddd * 10 ^ point`. -/
def ofPoint (digits : List Char) (point : Int) : Decimal :=
  ⟨Numeral.natural digits, point - digits.length⟩

/-- Digits with a point read back as a magnitude. -/
structure Reads (rank : Nat) (digits : List Char) (point : Int) : Prop where
  allDigits : AllDigits digits
  rank_eq : (ofPoint digits point).rank = rank

/-- A positive magnitude needs a digit. -/
theorem Reads.ne_nil {rank : Nat} {digits : List Char} {point : Int} (h : Reads rank digits point)
    (hpos : 0 < rank) : digits ≠ [] := by
  rintro rfl
  have hzero : (ofPoint [] point).rank = 0 := by
    have hdigits : (ofPoint [] point).digits = 0 := rfl
    rw [Decimal.rank, if_pos hdigits]
  have hrank := h.rank_eq
  omega

/-- Digits with a point read back as a magnitude, no fewer digits do, and no others of that number
are nearer to it. -/
structure Shortest (rank : Nat) (digits : List Char) (point : Int) : Prop extends
    Reads rank digits point where
  fewest : ∀ {other : List Char} {place : Int}, Reads rank other place →
    digits.length ≤ other.length
  nearest : ∀ {other : List Char} {place : Int}, Reads rank other place →
    other.length = digits.length →
    |(ofPoint digits point).value - Rank.value rank| ≤
      |(ofPoint other place).value - Rank.value rank|

/-! ## Decimals on a grid -/

/-- The decimal `n * 10 ^ (grid - 1074)`. The exact decimals of magnitudes lie on the grid `0`. -/
def onGrid (n grid : Nat) : Decimal := ⟨n, (grid : Int) - 1074⟩

/-- What one step of the grid `0` is worth. -/
def step : ℚ := (10 : ℚ) ^ (-1074 : Int)

theorem step_pos : 0 < step := zpow_pos (by norm_num) _

theorem value_onGrid (n grid : Nat) : (onGrid n grid).value = (n * 10 ^ grid : Nat) * step := by
  rw [value, onGrid, Int.sub_eq_add_neg, zpow_add₀ (by norm_num), zpow_natCast]
  show (n : ℚ) * ((10 : ℚ) ^ grid * step) = _
  push_cast
  ring

/-- How many steps of the grid `0` a magnitude is worth. -/
def steps (rank : Nat) : Nat := (Rank.exact rank).digits

theorem value_rank (rank : Nat) : Rank.value rank = steps rank * step := by
  rw [← value_exact]
  rfl

/-- How many steps of the grid `0` lie between a decimal on a grid and a magnitude. -/
def distance (n grid rank : Nat) : Nat := ((n * 10 ^ grid : Nat) - steps rank : Int).natAbs

theorem abs_value_sub (n grid rank : Nat) :
    |(onGrid n grid).value - Rank.value rank| = distance n grid rank * step := by
  rw [value_onGrid, value_rank, ← sub_mul, abs_mul, abs_of_pos step_pos, distance, Nat.cast_natAbs]
  push_cast
  rfl

/-- Between a decimal that reads back and the magnitude, decimals on any grid read back. -/
theorem rank_onGrid_between {rank n m grid grid' : Nat} (hle : rank ≤ Rank.count)
    (hn : (onGrid n grid).rank = rank)
    (h : n * 10 ^ grid ≤ m * 10 ^ grid' ∧ m * 10 ^ grid' ≤ steps rank ∨
      steps rank ≤ m * 10 ^ grid' ∧ m * 10 ^ grid' ≤ n * 10 ^ grid) :
    (onGrid m grid').rank = rank := by
  refine rank_between hle hn ?_
  rw [value_onGrid, value_onGrid, value_rank]
  simp only [mul_le_mul_iff_left₀ step_pos, Nat.cast_le]
  exact h

/-- The decimal on a grid that is next below a magnitude, and the one that is next above it. -/
theorem low_bounds (rank grid : Nat) :
    steps rank / 10 ^ grid * 10 ^ grid ≤ steps rank ∧
      steps rank < (steps rank / 10 ^ grid + 1) * 10 ^ grid := by
  have hpos : 0 < 10 ^ grid := Nat.pow_pos (by decide)
  exact ⟨Nat.div_mul_le_self .., by rw [Nat.mul_comm]; exact Nat.lt_mul_div_succ _ hpos⟩

/-- If a decimal on a grid reads back, so does the neighbour of the magnitude on its side. -/
theorem neighbour_reads {rank n grid : Nat} (hle : rank ≤ Rank.count)
    (hn : (onGrid n grid).rank = rank) :
    n ≤ steps rank / 10 ^ grid ∧ (onGrid (steps rank / 10 ^ grid) grid).rank = rank ∨
      steps rank / 10 ^ grid + 1 ≤ n ∧
        (onGrid (steps rank / 10 ^ grid + 1) grid).rank = rank := by
  obtain ⟨hlow, hhigh⟩ := low_bounds rank grid
  rcases Nat.lt_or_ge (steps rank / 10 ^ grid) n with habove | hbelow
  · exact .inr ⟨habove, rank_onGrid_between hle hn
      (.inr ⟨hhigh.le, Nat.mul_le_mul_right _ habove⟩)⟩
  · exact .inl ⟨hbelow, rank_onGrid_between hle hn
      (.inl ⟨Nat.mul_le_mul_right _ hbelow, hlow⟩)⟩

/-! ## The nearest decimal on a grid -/

/-- A decimal on a grid reads back, and none on that grid that does is nearer. -/
structure Nearest (rank n grid : Nat) : Prop where
  rank_eq : (onGrid n grid).rank = rank
  nearest : ∀ {m : Nat}, (onGrid m grid).rank = rank → distance n grid rank ≤ distance m grid rank

/-- Further below a magnitude is further away from it. -/
theorem distance_le_of_below {n m grid rank : Nat} (hn : n * 10 ^ grid ≤ steps rank) (h : m ≤ n) :
    distance n grid rank ≤ distance m grid rank := by
  have hmul : m * 10 ^ grid ≤ n * 10 ^ grid := Nat.mul_le_mul_right _ h
  simp only [distance]
  omega

/-- Further above a magnitude is further away from it. -/
theorem distance_le_of_above {n m grid rank : Nat} (hn : steps rank ≤ n * 10 ^ grid) (h : n ≤ m) :
    distance n grid rank ≤ distance m grid rank := by
  have hmul : n * 10 ^ grid ≤ m * 10 ^ grid := Nat.mul_le_mul_right _ h
  simp only [distance]
  omega

/-- The neighbour that is chosen is not further away than the other one. -/
theorem distance_nearer (tie : Tie) (rank grid : Nat) :
    distance (nearer tie (steps rank) (10 ^ grid) (steps rank / 10 ^ grid)) grid rank ≤
        distance (steps rank / 10 ^ grid) grid rank ∧
      distance (nearer tie (steps rank) (10 ^ grid) (steps rank / 10 ^ grid)) grid rank ≤
        distance (steps rank / 10 ^ grid + 1) grid rank := by
  obtain ⟨hlow, hhigh⟩ := low_bounds rank grid
  generalize steps rank / 10 ^ grid = low at *
  -- Which neighbour is chosen says on which side of their middle the magnitude lies.
  have hside : nearer tie (steps rank) (10 ^ grid) low = low ∧
        2 * steps rank ≤ (2 * low + 1) * 10 ^ grid ∨
      nearer tie (steps rank) (10 ^ grid) low = low + 1 ∧
        (2 * low + 1) * 10 ^ grid ≤ 2 * steps rank := by
    have heither := nearer_eq_or tie (steps rank) (10 ^ grid) low
    simp only [nearer] at heither ⊢
    split
    case isTrue hlt => exact .inl ⟨rfl, by omega⟩
    case isFalse hge =>
      split
      case isTrue hgt => exact .inr ⟨rfl, by omega⟩
      case isFalse hle =>
        rw [if_neg hge, if_neg hle] at heither
        exact heither.imp (⟨·, by omega⟩) (⟨·, by omega⟩)
  have hmiddle : (2 * low + 1) * 10 ^ grid = low * 10 ^ grid + (low + 1) * 10 ^ grid := by ring
  rcases hside with ⟨hchosen, hside⟩ | ⟨hchosen, hside⟩
  · rw [hchosen]
    simp only [distance]
    omega
  · rw [hchosen]
    simp only [distance]
    omega

end Decimal

namespace Rank

open Decimal

/-- The search on a grid looks at the two neighbours of the magnitude. -/
theorem onGrid?_eq (tie : Tie) (rank grid : Nat) :
    onGrid? tie rank grid =
      if (onGrid (steps rank / 10 ^ grid) grid).rank = rank then
        if (onGrid (steps rank / 10 ^ grid + 1) grid).rank = rank then
          some (onGrid (nearer tie (steps rank) (10 ^ grid) (steps rank / 10 ^ grid)) grid)
        else some (onGrid (steps rank / 10 ^ grid) grid)
      else if (onGrid (steps rank / 10 ^ grid + 1) grid).rank = rank then
        some (onGrid (steps rank / 10 ^ grid + 1) grid)
      else none := by
  have hdef : onGrid? tie rank grid =
      if ((onGrid (steps rank / 10 ^ grid) grid).rank == rank &&
          (onGrid (steps rank / 10 ^ grid + 1) grid).rank == rank) = true then
        some (onGrid (nearer tie (steps rank) (10 ^ grid) (steps rank / 10 ^ grid)) grid)
      else if ((onGrid (steps rank / 10 ^ grid) grid).rank == rank) = true then
        some (onGrid (steps rank / 10 ^ grid) grid)
      else if ((onGrid (steps rank / 10 ^ grid + 1) grid).rank == rank) = true then
        some (onGrid (steps rank / 10 ^ grid + 1) grid)
      else none := rfl
  rw [hdef]
  simp only [Bool.and_eq_true, beq_iff_eq]
  by_cases hlow : (onGrid (steps rank / 10 ^ grid) grid).rank = rank
  · simp only [hlow, true_and, if_true]
  · simp only [hlow, false_and, if_false]

/-- What is found on a grid is the nearest decimal there, one of the two neighbours. -/
theorem onGrid?_eq_some {tie : Tie} {rank grid : Nat} {d : Decimal} (hle : rank ≤ count)
    (h : onGrid? tie rank grid = some d) :
    ∃ n, d = onGrid n grid ∧ n ≤ steps rank / 10 ^ grid + 1 ∧ Nearest rank n grid := by
  have hrank := rank_onGrid? h
  obtain ⟨hlow, hhigh⟩ := low_bounds rank grid
  rw [onGrid?_eq] at h
  split at h
  case isTrue hreads =>
    split at h
    case isTrue =>
      cases h
      obtain ⟨hnearlow, hnearhigh⟩ := distance_nearer tie rank grid
      refine ⟨_, rfl, ?_, hrank, fun hm => ?_⟩
      · rcases nearer_eq_or tie (steps rank) (10 ^ grid) (steps rank / 10 ^ grid) with heq | heq
        · exact heq.le.trans (Nat.le_succ _)
        · exact heq.le
      · rcases neighbour_reads hle hm with ⟨hm, -⟩ | ⟨hm, -⟩
        · exact hnearlow.trans (distance_le_of_below hlow hm)
        · exact hnearhigh.trans (distance_le_of_above hhigh.le hm)
    case isFalse hnext =>
      cases h
      refine ⟨_, rfl, Nat.le_succ _, hrank, fun hm => ?_⟩
      -- Only the lower neighbour reads back, and with it only what is below.
      rcases neighbour_reads hle hm with ⟨hm, -⟩ | ⟨-, hreads'⟩
      · exact distance_le_of_below hlow hm
      · exact absurd hreads' hnext
  case isFalse hprevious =>
    split at h
    case isTrue =>
      cases h
      refine ⟨_, rfl, Nat.le_refl _, hrank, fun hm => ?_⟩
      rcases neighbour_reads hle hm with ⟨-, hreads'⟩ | ⟨hm, -⟩
      · exact absurd hreads' hprevious
      · exact distance_le_of_above hhigh.le hm
    case isFalse => cases h

/-- If nothing is found on a grid, no decimal there reads back. -/
theorem rank_ne_of_onGrid?_eq_none {tie : Tie} {rank grid : Nat} (hle : rank ≤ count)
    (h : onGrid? tie rank grid = none) (n : Nat) : (onGrid n grid).rank ≠ rank := by
  intro hn
  rw [onGrid?_eq] at h
  rcases neighbour_reads hle hn with ⟨-, hreads⟩ | ⟨-, hreads⟩
  · rw [if_pos hreads] at h
    split at h <;> cases h
  · rw [if_pos hreads, if_pos hreads] at h
    split at h <;> cases h

/-! ## The coarsest grid -/

/-- The number of digits of the exact decimal of a magnitude. -/
def size (rank : Nat) : Nat := (Nat.toDigits 10 (steps rank)).length

/-- The coarsest grid on which a decimal reads back as a magnitude, and the nearest such decimal. -/
structure Coarsest (rank n grid : Nat) : Prop extends Nearest rank n grid where
  grid_lt : grid < size rank
  n_le : n ≤ steps rank / 10 ^ grid + 1
  coarser : ∀ {grid' : Nat}, grid < grid' → grid' < size rank →
    ∀ m, (onGrid m grid').rank ≠ rank

/-- A search over a range ends at the first number that yields something. -/
theorem findSome?_range_eq_some {f : Nat → Option Decimal} {n : Nat} {d : Decimal}
    (h : (List.range n).findSome? f = some d) :
    ∃ i < n, f i = some d ∧ ∀ j < i, f j = none := by
  obtain ⟨before, i, after, hrange, hsome, hnone⟩ := List.findSome?_eq_some_iff.1 h
  have hlength : n = before.length + (after.length + 1) := by
    have hlengths := congrArg List.length hrange
    simpa using hlengths
  have hat : ∀ j < n, (before ++ i :: after)[j]? = some j := by
    intro j hj
    rw [← hrange, List.getElem?_range hj]
  have hi : i = before.length := by
    have hplace := hat before.length (by omega)
    simpa using hplace
  refine ⟨i, by omega, hsome, fun j hj => hnone j ?_⟩
  -- What stands before a number in a range are the smaller numbers.
  have hplace := hat j (by omega)
  rw [List.getElem?_append_left (by omega)] at hplace
  exact List.mem_of_getElem? hplace

/-- The search ends at the coarsest grid. -/
theorem shortest_eq (tie : Tie) {rank : Nat} (hle : rank ≤ count) :
    ∃ n grid, shortest tie rank = onGrid n grid ∧ Coarsest rank n grid := by
  have hsize : 0 < size rank := Nat.length_toDigits_pos
  show ∃ n grid, Option.getD (List.findSome? (fun kept => onGrid? tie rank (size rank - (kept + 1)))
    (List.range (size rank))) (exact rank) = onGrid n grid ∧ Coarsest rank n grid
  cases hfound : (List.range (size rank)).findSome? fun kept =>
      onGrid? tie rank (size rank - (kept + 1)) with
  | none =>
    -- The exact decimal lies on the last grid that is searched.
    have hlast := List.findSome?_eq_none_iff.1 hfound (size rank - 1) (by simp; omega)
    have hgrid : size rank - (size rank - 1 + 1) = 0 := by omega
    rw [hgrid] at hlast
    exact absurd (rank_exact hle) (rank_ne_of_onGrid?_eq_none hle hlast (steps rank))
  | some d =>
    obtain ⟨kept, hkept, hgrid, hnone⟩ := findSome?_range_eq_some hfound
    obtain ⟨n, hd, hn, hnearest⟩ := onGrid?_eq_some hle hgrid
    refine ⟨n, size rank - (kept + 1), hd, hnearest, by omega, hn, ?_⟩
    intro grid' hlt hsize' m
    have hearlier := hnone (size rank - (grid' + 1)) (by omega)
    have hgrid' : size rank - (size rank - (grid' + 1) + 1) = grid' := by omega
    rw [hgrid'] at hearlier
    exact rank_ne_of_onGrid?_eq_none hle hearlier m

end Rank

namespace Decimal

open Number

/-! ## Digits without zeros at the end -/

/-- A number with more than `k` digits is at least `10 ^ k`. -/
theorem pow_le_of_lt_length {n k : Nat} (hn : n ≠ 0) (h : k < (Nat.toDigits 10 n).length) :
    10 ^ k ≤ n := by
  rcases Nat.eq_zero_or_pos k with hzero | hpos
  · rw [hzero, Nat.pow_zero]
    omega
  · by_contra hlt
    have hlength := (Nat.length_toDigits_le_iff (b := 10) (by decide) hpos).2 (Nat.lt_of_not_ge hlt)
    omega

/-- What is left of the digits of a decimal is worth as much as the decimal. -/
theorem value_digitsAndPoint (d : Decimal) :
    (ofPoint (Layout.digitsAndPoint d).1 (Layout.digitsAndPoint d).2).value = d.value := by
  obtain ⟨n, hdigits, hpoint⟩ := Layout.digitsAndPoint_eq d
  have hnatural := Numeral.natural_mul_pow hdigits
  have hexponent : (Layout.digitsAndPoint d).2 - (Layout.digitsAndPoint d).1.length =
      (n : Int) + d.exponent := by omega
  rw [value, value, ofPoint, ← hnatural, hexponent, zpow_add₀ (by norm_num), zpow_natCast]
  push_cast
  ring

/-- What is left of the digits of a positive decimal does not end in zero. -/
theorem natural_digitsAndPoint_mod_ten {d : Decimal} (h : d.digits ≠ 0) :
    Numeral.natural (Layout.digitsAndPoint d).1 % 10 ≠ 0 := by
  obtain ⟨hsignificant, -⟩ := Layout.digitsAndPoint_spec h
  have hlast := List.head?_dropWhile_not (· == '0') (Nat.toDigits 10 d.digits).reverse
  have hreverse : (Layout.digitsAndPoint d).1.reverse =
      (Nat.toDigits 10 d.digits).reverse.dropWhile (· == '0') := List.reverse_reverse _
  rw [← hreverse] at hlast
  rcases List.eq_nil_or_concat' (Layout.digitsAndPoint d).1 with hnil | ⟨digits, c, hconcat⟩
  · exact absurd hnil hsignificant.ne_nil
  · have hdigit := hsignificant.allDigits c (by simp [hconcat])
    rw [hconcat] at hlast ⊢
    have hne : c ≠ '0' := by simpa using hlast
    have hrange := Numeral.toNat_of_isDigit hdigit
    have hzero : c.toNat ≠ '0'.toNat := fun heq => hne (Char.toNat_inj.1 heq)
    rw [Numeral.natural_concat]
    omega

/-- Of digits that are worth the same, those with the point further left have zeros behind them. -/
theorem natural_eq_mul_pow {digits other : List Char} {point place : Int} {k : Nat}
    (hplace : place - other.length + k = point - digits.length)
    (hvalue : (ofPoint other place).value = (ofPoint digits point).value) :
    Numeral.natural other = Numeral.natural digits * 10 ^ k := by
  simp only [value, ofPoint] at hvalue
  rw [← hplace, zpow_add₀ (by norm_num), zpow_natCast, ← mul_assoc, mul_right_comm] at hvalue
  exact_mod_cast mul_right_cancel₀ (zpow_ne_zero _ (by norm_num)) hvalue

/-- Digits that do not end in zero denote the least number among digits that are worth the same. -/
theorem natural_le_natural {digits other : List Char} {point place : Int}
    (hmod : Numeral.natural digits % 10 ≠ 0)
    (hvalue : (ofPoint other place).value = (ofPoint digits point).value) :
    Numeral.natural digits ≤ Numeral.natural other := by
  rcases Int.le_total (place - other.length) (point - digits.length) with hleft | hright
  · obtain ⟨k, hk⟩ := Int.le.dest hleft
    rw [natural_eq_mul_pow hk hvalue]
    exact Nat.le_mul_of_pos_right _ (Nat.pow_pos (by decide))
  · obtain ⟨k, hk⟩ := Int.le.dest hright
    have heq := natural_eq_mul_pow hk hvalue.symm
    cases k with
    | zero => rw [heq, Nat.pow_zero, Nat.mul_one]
    | succ k =>
      rw [Nat.pow_succ, ← Nat.mul_assoc] at heq
      omega

/-- No fewer digits are worth as much as what is left of the digits of a positive decimal. -/
theorem length_digitsAndPoint_le {d : Decimal} (h : d.digits ≠ 0) {other : List Char} {place : Int}
    (hother : AllDigits other) (hvalue : (ofPoint other place).value = d.value) :
    (Layout.digitsAndPoint d).1.length ≤ other.length := by
  obtain ⟨n, hdigits, -⟩ := Layout.digitsAndPoint_eq d
  rw [← value_digitsAndPoint d] at hvalue
  have hle := natural_le_natural (natural_digitsAndPoint_mod_ten h) hvalue
  have hnatural := Numeral.natural_mul_pow hdigits
  by_contra hlt
  have hlength : other.length + n < (Nat.toDigits 10 d.digits).length := by
    rw [hdigits, List.length_append, Layout.zeros, List.length_replicate]
    omega
  have hpow := pow_le_of_lt_length h hlength
  rw [← hnatural, Nat.pow_add, Nat.mul_le_mul_right_iff (Nat.pow_pos (by decide))] at hpow
  have hother' := Numeral.natural_lt hother
  omega

/-! ## The digits that are found -/

theorem steps_ne_zero {rank : Nat} (hpos : 0 < rank) : steps rank ≠ 0 := by
  have hunits : Rank.units rank ≠ 0 := mt (Rank.units_eq_zero_iff rank).1 (by omega)
  have hpow : ∀ k, Nat.pow 5 k ≠ 0 := fun k => (Nat.pow_pos (by decide)).ne'
  exact Nat.mul_ne_zero hunits (hpow 1074)

/-- The leading power of ten of the exact decimal is at most the magnitude. -/
theorem pow_size_le {rank : Nat} (hpos : 0 < rank) : 10 ^ (Rank.size rank - 1) ≤ steps rank := by
  have hsize : 0 < Rank.size rank := Nat.length_toDigits_pos
  exact pow_le_of_lt_length (steps_ne_zero hpos) (Nat.sub_lt hsize Nat.one_pos)

theorem steps_lt (rank : Nat) : steps rank < 10 ^ Rank.size rank :=
  (Nat.length_toDigits_le_iff (by decide) Nat.length_toDigits_pos).1 (Nat.le_refl _)

/-- Digits with a point lie on a grid, unless they are worth at most the leading power of ten of the
exact decimal: so few digits leave the grid only that far below. -/
theorem on_grid_or_below {rank grid : Nat} {other : List Char} {place : Int}
    (hother : AllDigits other) (hsize : other.length + grid ≤ Rank.size rank) :
    (∃ m, (ofPoint other place).value = (onGrid m grid).value) ∨
      (ofPoint other place).value ≤ (onGrid 1 (Rank.size rank - 1)).value := by
  by_cases hgrid : (grid : Int) - 1074 ≤ place - other.length
  · obtain ⟨k, hk⟩ := Int.le.dest hgrid
    have heq : ofPoint other place = onGrid (Numeral.natural other) (grid + k) := by
      rw [ofPoint, onGrid, ← hk]
      congr 1
      omega
    refine .inl ⟨Numeral.natural other * 10 ^ k, ?_⟩
    rw [heq, value_onGrid, value_onGrid]
    congr 2
    ring
  · right
    have hnatural : (Numeral.natural other : ℚ) ≤ (10 : ℚ) ^ (other.length : Int) := by
      exact_mod_cast (Numeral.natural_lt hother).le
    calc (ofPoint other place).value
        = Numeral.natural other * (10 : ℚ) ^ (place - other.length) := rfl
      _ ≤ (10 : ℚ) ^ (other.length : Int) * (10 : ℚ) ^ (place - other.length) :=
          mul_le_mul_of_nonneg_right hnatural (zpow_nonneg (by norm_num) _)
      _ = (10 : ℚ) ^ place := by
          rw [← zpow_add₀ (by norm_num)]
          congr 1
          omega
      _ ≤ (10 : ℚ) ^ (((Rank.size rank - 1 : Nat) : Int) - 1074) :=
          zpow_le_zpow_right₀ (by norm_num) (by omega)
      _ = (onGrid 1 (Rank.size rank - 1)).value := by rw [value, onGrid, Nat.cast_one, one_mul]

end Decimal

namespace Rank.Coarsest

open Decimal Number

variable {rank n grid : Nat} {other : List Char} {place : Int}

/-- Digits that read back lie on any grid that they have room for, or the coarsest grid is that of
the leading power of ten, and this reads back and lies between them and the magnitude. -/
theorem on_grid_or_leading (h : Coarsest rank n grid) (hpos : 0 < rank)
    (hle : rank ≤ Rank.count) (hreads : Reads rank other place) (grid' : Nat)
    (hsize : other.length + grid' ≤ Rank.size rank) :
    (∃ m, (ofPoint other place).value = (onGrid m grid').value ∧ (onGrid m grid').rank = rank) ∨
      grid + 1 = Rank.size rank ∧ (onGrid 1 grid).rank = rank ∧
        (ofPoint other place).value ≤ (onGrid 1 grid).value ∧
        (onGrid 1 grid).value ≤ Rank.value rank := by
  rcases on_grid_or_below hreads.allDigits hsize with ⟨m, hvalue⟩ | hbelow
  · exact .inl ⟨m, hvalue, (rank_eq_of_value hvalue).symm.trans hreads.rank_eq⟩
  · right
    have hleading : (onGrid 1 (Rank.size rank - 1)).value ≤ Rank.value rank := by
      rw [value_onGrid, value_rank, mul_le_mul_iff_left₀ step_pos, Nat.cast_le, Nat.one_mul]
      exact pow_size_le hpos
    have hrank := rank_between hle hreads.rank_eq (.inl ⟨hbelow, hleading⟩)
    have hgrid := h.grid_lt
    have hlast : Rank.size rank - 1 = grid := by
      by_contra hne
      exact h.coarser (by omega) (by omega) 1 hrank
    rw [hlast] at hrank hbelow hleading
    exact ⟨by omega, hrank, hbelow, hleading⟩

/-- The digits that are left of the nearest decimal fit above its grid. -/
theorem length_le (h : Coarsest rank n grid) (hn : n ≠ 0) :
    (Layout.digitsAndPoint (onGrid n grid)).1.length + grid ≤ Rank.size rank := by
  have hgrid := h.grid_lt
  have hroom : steps rank / 10 ^ grid < 10 ^ (Rank.size rank - grid) := by
    rw [Nat.div_lt_iff_lt_mul (Nat.pow_pos (by decide)), ← Nat.pow_add, Nat.sub_add_cancel hgrid.le]
    exact steps_lt rank
  rcases Nat.lt_or_eq_of_le (h.n_le.trans hroom) with hlt | heq
  · obtain ⟨k, hdigits, -⟩ := Layout.digitsAndPoint_eq (onGrid n grid)
    have hlength := (Nat.length_toDigits_le_iff (b := 10) (by decide) (by omega)).2 hlt
    have hsum := congrArg List.length hdigits
    rw [List.length_append] at hsum
    have hdef : (onGrid n grid).digits = n := rfl
    rw [hdef] at hsum
    omega
  · -- A power of ten needs a single digit.
    have hvalue : (ofPoint ['1'] (Rank.size rank - 1074 + 1)).value = (onGrid n grid).value := by
      have hone : ofPoint ['1'] (Rank.size rank - 1074 + 1) = onGrid 1 (Rank.size rank) := by
        have hnatural : Numeral.natural ['1'] = 1 := rfl
        simp [ofPoint, onGrid, hnatural]
      rw [hone, value_onGrid, value_onGrid, heq, ← Nat.pow_add, Nat.sub_add_cancel hgrid.le,
        Nat.one_mul]
    have hfew := length_digitsAndPoint_le (d := onGrid n grid) hn (by simp [AllDigits]) hvalue
    rw [List.length_singleton] at hfew
    omega

end Rank.Coarsest

namespace Decimal

open Number

/-- The digits that are found for a positive magnitude are the fewest that read back, and the
nearest of these. -/
theorem shortest_digitsAndPoint (tie : Tie) {rank : Nat} (hpos : 0 < rank)
    (hle : rank ≤ Rank.count) :
    Shortest rank (Layout.digitsAndPoint (Rank.shortest tie rank)).1
      (Layout.digitsAndPoint (Rank.shortest tie rank)).2 := by
  obtain ⟨n, grid, hfound, hcoarsest⟩ := Rank.shortest_eq tie hle
  have hn : n ≠ 0 := by
    have hdigits := Rank.digits_shortest_ne_zero tie hpos hle
    rwa [hfound] at hdigits
  rw [hfound]
  obtain ⟨hsignificant, hrank⟩ := Layout.digitsAndPoint_spec (d := onGrid n grid) hn
  have hroom := hcoarsest.length_le hn
  have hvalue := value_digitsAndPoint (onGrid n grid)
  refine ⟨⟨hsignificant.allDigits, hrank.trans hcoarsest.rank_eq⟩, ?_, ?_⟩
  · intro other place hreads
    have hne : 0 < other.length := List.length_pos_iff.2 (hreads.ne_nil hpos)
    by_contra hlt
    -- Fewer digits have room on a grid that is coarser still.
    rcases hcoarsest.on_grid_or_leading hpos hle hreads (Rank.size rank - other.length)
      (by omega) with ⟨m, -, hm⟩ | ⟨hlast, -⟩
    · exact hcoarsest.coarser (by omega) (by omega) m hm
    · omega
  · intro other place hreads hlength
    rw [hvalue]
    rcases hcoarsest.on_grid_or_leading hpos hle hreads grid (by omega) with
      ⟨m, hm, hreads'⟩ | ⟨-, hreads', hbelow, hleading⟩
    · rw [hm, abs_value_sub, abs_value_sub, mul_le_mul_iff_left₀ step_pos, Nat.cast_le]
      exact hcoarsest.nearest hreads'
    · calc |(onGrid n grid).value - Rank.value rank|
          ≤ |(onGrid 1 grid).value - Rank.value rank| := by
            rw [abs_value_sub, abs_value_sub, mul_le_mul_iff_left₀ step_pos, Nat.cast_le]
            exact hcoarsest.nearest hreads'
        _ ≤ |(ofPoint other place).value - Rank.value rank| := by
            rw [abs_of_nonpos (by linarith), abs_of_nonpos (by linarith)]
            linarith

end Decimal

end LooseRecords
