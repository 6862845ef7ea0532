import LooseRecords.Number.Scaled
import LooseRecords.Proofs.Number.RadixLiteral

/-!
# Decimals computed in floating point

What is computed for a decimal is `Decimal.Computes`: the digits are rounded, the power of ten is
rounded, and so is their product or quotient. For integers of 64 bits it is the nearest number,
`Decimal.scaled_eq_number`. For other decimals it may be another one, but it is finite wherever the
nearest number is not one of the three greatest: `Decimal.exists_scaled_eq_finite`.
-/

namespace LooseRecords

namespace Number

/-- Neither `nan` nor an infinity. -/
def isFinite : Number → Bool
  | .finite _ _ => true
  | _ => false

theorem isFinite_iff {n : Number} :
    n.isFinite = true ↔ ∃ negative rank, n = .finite negative rank := by
  cases n <;> simp [isFinite]

/-- Integers of 64 bits are finite numbers. -/
theorem exists_ofInt_eq {i : Int} (hlow : Int64.minValue.toInt ≤ i) (hhigh : i < UInt64.size) :
    ∃ negative rank, ofInt i = .finite negative rank := by
  have hbound : i.natAbs ≤ 2 ^ 64 := by
    have hmin : Int64.minValue.toInt = -2 ^ 63 := rfl
    have hsize : (UInt64.size : Int) = 2 ^ 64 := rfl
    omega
  have hrank : Rank.nearest (i.natAbs * Rank.one) 1 < Rank.count :=
    calc Rank.nearest (i.natAbs * Rank.one) 1
        ≤ Rank.nearest (2 ^ 64 * Rank.one) 1 :=
          Rank.nearest_le_nearest 1 (Nat.mul_le_mul_right _ hbound)
      _ < Rank.count := by decide +kernel
  refine ⟨decide (i < 0), ⟨_, hrank⟩, ?_⟩
  rw [ofInt, ofRatio, ofRank_of_lt hrank]

end Number

namespace Rank

/-! ## Rounded factors -/

/-- From one magnitude to the next it is one step, or at most one part in `2 ^ 52`. -/
theorem exists_gap (n : Nat) :
    ∃ gap, units (floor n + 1) = units (floor n) + gap ∧
      (gap = 1 ∨ gap * 2 ^ 52 ≤ units (floor n)) := by
  refine ⟨2 ^ (Nat.log2 n - 52), ?_, ?_⟩
  · rw [units_floor, units_floor_succ, Nat.shiftLeft_eq, Nat.shiftLeft_eq, Nat.add_one_mul]
  · rw [units_floor, Nat.shiftLeft_eq, Nat.mul_comm]
    refine (significand_bounds n).2.imp (fun hscale => ?_) fun hfull => ?_
    · rw [hscale, Nat.pow_zero]
    · exact Nat.mul_le_mul_right _ hfull

/-- Rounding adds at most one part in `2 ^ 53`. -/
theorem units_nearest_mul_le (n : Nat) : units (nearest n 1) * 2 ^ 53 ≤ n * (2 ^ 53 + 1) := by
  have hlow := units_floor_le n
  obtain ⟨gap, hgap, hsmall⟩ := exists_gap n
  simp only [nearest, Nat.div_one, Nat.mul_one, hgap]
  split
  case isTrue => omega
  case isFalse =>
    split
    case isTrue =>
      rw [hgap]
      omega
    case isFalse =>
      -- Halfway between both, and only the one above if that is even.
      rcases Nat.mod_two_eq_zero_or_one (floor n) with heven | hodd
      · rw [heven, Nat.add_zero]
        omega
      · rw [hodd, hgap]
        omega

/-- The product of two rounded integers is finite if the exact product is three steps below the
greatest magnitude. -/
theorem nearest_mul_lt_count {m n : Nat} (h : m * n ≤ units (count - 3) * one) :
    nearest (units (nearest m 1) * units (nearest n 1)) one < count := by
  have hslack : units (count - 3) * (2 ^ 53 + 1) ^ 2 ≤ units (count - 1) * 2 ^ 106 := by
    decide +kernel
  have hproduct : units (nearest m 1) * units (nearest n 1) ≤ units (count - 1) * one := by
    refine Nat.le_of_mul_le_mul_right ?_ (Nat.two_pow_pos 106)
    calc units (nearest m 1) * units (nearest n 1) * 2 ^ 106
        = units (nearest m 1) * 2 ^ 53 * (units (nearest n 1) * 2 ^ 53) := by ring
      _ ≤ m * (2 ^ 53 + 1) * (n * (2 ^ 53 + 1)) :=
          Nat.mul_le_mul (units_nearest_mul_le m) (units_nearest_mul_le n)
      _ = m * n * (2 ^ 53 + 1) ^ 2 := by ring
      _ ≤ units (count - 3) * one * (2 ^ 53 + 1) ^ 2 := Nat.mul_le_mul_right _ h
      _ = units (count - 3) * (2 ^ 53 + 1) ^ 2 * one := by ring
      _ ≤ units (count - 1) * 2 ^ 106 * one := Nat.mul_le_mul_right _ hslack
      _ = units (count - 1) * one * 2 ^ 106 := by ring
  have hle := nearest_le_nearest one hproduct
  rw [nearest_units one_pos] at hle
  exact Nat.lt_of_le_of_lt hle (by decide)

/-- A magnitude divided by one that is at least one is no greater than before. -/
theorem nearest_div_le {s : Nat} (h : one ≤ units s) (r : Nat) :
    nearest (units r * one) (units s) ≤ r := by
  have hle := nearest_le_nearest (units s) (Nat.mul_le_mul_left (units r) h)
  rwa [nearest_units (Nat.lt_of_lt_of_le one_pos h)] at hle

/-- An integer from one on is rounded to a magnitude from one on. -/
theorem one_le_units_nearest {n : Nat} (h : 1 ≤ n) : one ≤ units (nearest (n * one) 1) := by
  have hone : units (1023 * binade) = one := by decide +kernel
  rw [← hone, units_le_units_iff]
  refine le_nearest Nat.one_pos ?_
  rw [hone, Nat.mul_one]
  exact Nat.le_mul_of_pos_left one h

/-! ## Rounded results -/

theorem nearestTo_mul (r s : Nat) :
    NearestTo (value r * value s) (nearest (units r * units s) one) := by
  have hnearest := nearestTo_nearest (units r * units s) (Nat.mul_pos one_pos one_pos)
  rw [nearest_mul_right one_pos] at hnearest
  have hvalue : value r * value s = ((units r * units s : Nat) : ℚ) / (one * one : Nat) := by
    rw [value, value, div_mul_div_comm]
    push_cast
    rfl
  rwa [hvalue]

theorem nearestTo_div (r : Nat) {s : Nat} (h : one ≤ units s) :
    NearestTo (value r / value s) (nearest (units r * one) (units s)) := by
  have hone : (one : ℚ) ≠ 0 := by exact_mod_cast one_pos.ne'
  have hvalue : value r / value s = (units r : ℚ) / units s := by
    rw [value, value, div_div_div_cancel_right₀ hone]
  rw [hvalue]
  exact nearestTo_nearest (units r) (Nat.lt_of_lt_of_le one_pos h)

/-- A magnitude divided by `10 ^ exponent` in steps of at most `10 ^ 308`, with powers of ten and
quotients rounded. -/
inductive Divided : Nat → Nat → Nat → Prop where
  | last {exponent rank power result : Nat} (he : exponent ≤ 308)
    (hpower : NearestTo (10 ^ exponent : Nat) power)
    (hresult : NearestTo (value rank / value power) result) : Divided exponent rank result
  | more {exponent rank power middle result : Nat} (he : 0 < exponent)
    (hpower : NearestTo (10 ^ 308 : Nat) power)
    (hmiddle : NearestTo (value rank / value power) middle)
    (hrest : Divided exponent middle result) : Divided (exponent + 308) rank result

theorem Divided.unique {exponent rank a b : Nat} (ha : Divided exponent rank a)
    (hb : Divided exponent rank b) : a = b := by
  induction ha with
  | last he hpower hresult =>
    cases hb with
    | last _ hpower' hresult' =>
      obtain rfl := hpower.unique hpower'
      exact hresult.unique hresult'
    | more => omega
  | more he hpower hmiddle _ ih =>
    cases hb with
    | last => omega
    | more _ hpower' hmiddle' hrest =>
      obtain rfl := hpower.unique hpower'
      obtain rfl := hmiddle.unique hmiddle'
      exact ih hrest

end Rank

namespace Decimal

/-! ## Powers of ten -/

/-- The number of an integer below a bound is finite if that of the bound is. -/
theorem exists_ofNat_eq_finite {n bound : Nat} (h : n ≤ bound)
    (hbound : Rank.nearest (bound * Rank.one) 1 < Rank.count) :
    ∃ rank : Fin Rank.count, Number.ofNat n = .finite false rank ∧
      rank.val = Rank.nearest (n * Rank.one) 1 := by
  have hle := Rank.nearest_le_nearest 1 (Nat.mul_le_mul_right Rank.one h)
  have hlt := Nat.lt_of_le_of_lt hle hbound
  refine ⟨⟨_, hlt⟩, ?_, rfl⟩
  rw [Number.ofNat_eq, Number.ofRank_of_lt hlt]

/-- Integers of 64 bits are finite numbers. -/
theorem exists_ofNat_of_lt {n : Nat} (h : n < UInt64.size) :
    ∃ rank : Fin Rank.count, Number.ofNat n = .finite false rank ∧
      rank.val = Rank.nearest (n * Rank.one) 1 :=
  exists_ofNat_eq_finite h.le (by decide +kernel)

/-- Powers of ten up to `10 ^ 308` are finite numbers. -/
theorem exists_tenPower {e : Nat} (h : e ≤ 308) :
    ∃ rank : Fin Rank.count, tenPower e = .finite false rank ∧
      rank.val = Rank.nearest (10 ^ e * Rank.one) 1 :=
  exists_ofNat_eq_finite (Nat.pow_le_pow_right (by decide) h) (by decide +kernel)

/-! ## Products -/

/-- For powers of ten up to `10 ^ 308` the rounded integer is multiplied once. -/
theorem scaled_ofNat {digits e : Nat} (hdigits : digits < UInt64.size) (he : e ≤ 308) :
    scaled ⟨digits, .ofNat e⟩ =
      .ofRank false (Rank.nearest (Rank.units (Rank.nearest (digits * Rank.one) 1) *
        Rank.units (Rank.nearest (10 ^ e * Rank.one) 1)) Rank.one) := by
  obtain ⟨whole, hwhole, hval⟩ := exists_ofNat_of_lt hdigits
  obtain ⟨power, hpower, hpowerVal⟩ := exists_tenPower he
  simp only [scaled]
  rw [if_pos he, hwhole, hpower, ← hval, ← hpowerVal]
  rfl

/-- Greater powers of ten are too great for everything but zero. -/
theorem scaled_ofNat_of_lt {digits e : Nat} (hdigits : digits < UInt64.size) (he : 308 < e) :
    scaled ⟨digits, .ofNat e⟩ = .ofRank false (if digits = 0 then 0 else Rank.count) := by
  obtain ⟨whole, hwhole, hval⟩ := exists_ofNat_of_lt hdigits
  have hzero : (Number.finite false whole).isZero = true ↔ digits = 0 := by
    have hrank : whole.val = 0 ↔ digits = 0 := by
      rw [hval]
      constructor
      · intro hnear
        by_contra hne
        have hone := Rank.one_le_units_nearest (Nat.pos_of_ne_zero hne)
        rw [hnear] at hone
        exact absurd (Nat.lt_of_lt_of_le Rank.one_pos hone) (by decide)
      · rintro rfl
        rw [Nat.zero_mul]
        exact Rank.nearest_eq_zero (by decide)
    rw [← hrank]
    simp [Number.isZero, Number.place?]
  simp only [scaled]
  rw [if_neg (Nat.not_le.2 he), hwhole]
  simp only [hzero]
  split
  case isTrue hdigits =>
    have hrank : whole = ⟨0, by decide⟩ := by
      apply Fin.ext
      rw [hval, hdigits, Nat.zero_mul]
      exact Rank.nearest_eq_zero (by decide)
    rw [hrank]
    rfl
  case isFalse => rfl

/-! ## Quotients -/

/-- Dividing by a power of ten gives a magnitude that is nearest to the quotient, and no greater
than what is divided. -/
theorem exists_div_tenPower {e : Nat} (he : e ≤ 308) (rank : Fin Rank.count) :
    ∃ (power : Nat) (less : Fin Rank.count), Rank.NearestTo (10 ^ e : Nat) power ∧
      Rank.NearestTo (Rank.value rank / Rank.value power) less ∧ less ≤ rank ∧
      (Number.finite false rank).div (tenPower e) = .finite false less := by
  obtain ⟨power, hpower, hval⟩ := exists_tenPower he
  have hone : Rank.one ≤ Rank.units power.val := by
    rw [hval]
    exact Rank.one_le_units_nearest (Nat.pow_pos (by decide))
  have hpos : power.val ≠ 0 := by
    intro hzero
    rw [hzero] at hone
    exact absurd (Nat.lt_of_lt_of_le Rank.one_pos hone) (by decide)
  have hle := Rank.nearest_div_le hone rank.val
  have hlt := Nat.lt_of_le_of_lt hle rank.isLt
  refine ⟨power, ⟨_, hlt⟩, ?_, Rank.nearestTo_div rank hone, hle, ?_⟩
  · rw [hval]
    exact Rank.nearestTo_natCast _
  · rw [hpower]
    show (if power.val = 0 then _ else Number.ofRank _ _) = _
    rw [if_neg hpos]
    exact Number.ofRank_of_lt hlt false

/-- Zero remains zero however often it is divided. -/
theorem divided_zero {e : Nat} (hpos : 0 < e) (he : e ≤ 308) (n : Nat) :
    Rank.Divided (e + 308 * n) 0 0 := by
  have hstep : ∀ {e}, e ≤ 308 → ∃ power, Rank.NearestTo (10 ^ e : Nat) power ∧
      Rank.NearestTo (Rank.value 0 / Rank.value power) 0 := by
    intro e he
    obtain ⟨power, less, hpower, hless, hle, -⟩ := exists_div_tenPower he ⟨0, by decide⟩
    have hzero : less.val = 0 := Nat.le_zero.1 hle
    rw [hzero] at hless
    exact ⟨power, hpower, hless⟩
  induction n with
  | zero =>
    obtain ⟨power, hpower, hresult⟩ := hstep he
    exact .last he hpower hresult
  | succ n ih =>
    obtain ⟨power, hpower, hmiddle⟩ := hstep (Nat.le_refl 308)
    rw [Nat.mul_add_one, ← Nat.add_assoc]
    exact .more (by omega) hpower hmiddle ih

/-- A number that is divided by `10 ^ 308` several times and by a smaller power of ten at the end.
-/
theorem exists_shrink_div {e : Nat} (hpos : 0 < e) (he : e ≤ 308) (n : Nat)
    (rank : Fin Rank.count) :
    ∃ less : Fin Rank.count, (shrink n (.finite false rank)).div (tenPower e) = .finite false less ∧
      Rank.Divided (e + 308 * n) rank less := by
  induction n generalizing rank with
  | zero =>
    obtain ⟨power, less, hpower, hresult, -, hdiv⟩ := exists_div_tenPower he rank
    exact ⟨less, hdiv, .last he hpower hresult⟩
  | succ n ih =>
    rw [shrink]
    split
    case isTrue hzero =>
      have hrank : rank.val = 0 := by simpa [Number.isZero, Number.place?] using hzero
      obtain ⟨-, less, -, -, hle, hdiv⟩ := exists_div_tenPower he rank
      have hless : less.val = 0 := Nat.le_zero.1 (hrank ▸ hle)
      refine ⟨less, hdiv, ?_⟩
      rw [hrank, hless]
      exact divided_zero hpos he _
    case isFalse =>
      obtain ⟨power, middle, hpower, hmiddle, -, hdiv⟩ := exists_div_tenPower (Nat.le_refl 308) rank
      obtain ⟨less, hless, hrest⟩ := ih middle
      rw [hdiv, Nat.mul_add_one, ← Nat.add_assoc]
      exact ⟨less, hless, .more (by omega) hpower hmiddle hrest⟩

/-- Negative powers of ten always leave a finite number. -/
theorem exists_scaled_negSucc {digits : Nat} (hdigits : digits < UInt64.size) (e : Nat) :
    ∃ rank : Fin Rank.count, scaled ⟨digits, .negSucc e⟩ = .finite false rank ∧
      Rank.Divided (e + 1) (Rank.nearest (digits * Rank.one) 1) rank := by
  obtain ⟨whole, hwhole, hval⟩ := exists_ofNat_of_lt hdigits
  obtain ⟨rank, hrank, hdivided⟩ :=
    @exists_shrink_div (e % 308 + 1) (by omega) (by omega) (e / 308) whole
  have hexponent : e % 308 + 1 + 308 * (e / 308) = e + 1 := by omega
  refine ⟨rank, ?_, by rwa [hexponent, hval] at hdivided⟩
  simp only [scaled]
  rw [hwhole, hrank]

/-! ## What is computed -/

/-- The magnitude that is computed for a decimal in finite arithmetic: the digits, the powers of ten
and each result are rounded. -/
def Computes (d : Decimal) (rank : Nat) : Prop :=
  ∃ whole, Rank.NearestTo d.digits whole ∧
    match d.exponent with
    | .ofNat e =>
      (∃ power, e ≤ 308 ∧ Rank.NearestTo (10 ^ e : Nat) power ∧
        Rank.NearestTo (Rank.value whole * Rank.value power) rank) ∨
      308 < e ∧ d.digits = 0 ∧ rank = 0
    | .negSucc e => Rank.Divided (e + 1) whole rank

/-- The number that is computed for a decimal is finite exactly if finite arithmetic gives it. -/
theorem scaled_eq_finite_iff {d : Decimal} (hdigits : d.digits < UInt64.size) {sign : Bool}
    {rank : Fin Rank.count} : d.scaled = .finite sign rank ↔ sign = false ∧ d.Computes rank := by
  obtain ⟨digits, exponent⟩ := d
  have hwhole := Rank.nearestTo_natCast digits
  cases exponent with
  | negSucc e =>
    obtain ⟨result, hscaled, hdivided⟩ := exists_scaled_negSucc hdigits e
    rw [hscaled]
    constructor
    · rintro ⟨⟩
      exact ⟨rfl, _, hwhole, hdivided⟩
    · rintro ⟨rfl, whole, hnear, hresult⟩
      obtain rfl := hnear.unique hwhole
      rw [Fin.ext (hresult.unique hdivided)]
  | ofNat e =>
    rcases Nat.lt_or_ge 308 e with hlt | hge
    · rw [scaled_ofNat_of_lt hdigits hlt, Number.ofRank_eq_finite_iff, @eq_comm _ false]
      refine and_congr_right fun _ => ?_
      constructor
      · intro hrank
        have hzero : digits = 0 := by
          by_contra hne
          rw [if_neg hne] at hrank
          exact absurd rank.isLt (by omega)
        rw [if_pos hzero] at hrank
        exact ⟨_, hwhole, .inr ⟨hlt, hzero, hrank.symm⟩⟩
      · rintro ⟨whole, -, ⟨power, hle, -⟩ | ⟨-, hzero, hrank⟩⟩
        · omega
        · exact (if_pos hzero).trans hrank.symm
    · have hpower := Rank.nearestTo_natCast (10 ^ e)
      rw [scaled_ofNat hdigits hge, Number.ofRank_eq_finite_iff, @eq_comm _ false]
      refine and_congr_right fun _ => ?_
      constructor
      · intro hrank
        exact ⟨_, hwhole, .inl ⟨_, hge, hpower, hrank ▸ Rank.nearestTo_mul _ _⟩⟩
      · rintro ⟨whole, hnear, ⟨power, -, hnearPower, hresult⟩ | ⟨hlt, -⟩⟩
        · obtain rfl := hnear.unique hwhole
          obtain rfl := hnearPower.unique hpower
          exact (Rank.nearestTo_mul _ _).unique hresult
        · omega

/-- What is computed for a decimal is finite if the nearest magnitude is not one of the three
greatest. -/
theorem exists_scaled_eq_finite {d : Decimal} (hdigits : d.digits < UInt64.size)
    (h : d.rank + 3 < Rank.count) :
    ∃ rank : Fin Rank.count, d.scaled = .finite false rank := by
  obtain ⟨digits, exponent⟩ := d
  cases exponent with
  | negSucc e =>
    obtain ⟨rank, hrank, -⟩ := exists_scaled_negSucc hdigits e
    exact ⟨rank, hrank⟩
  | ofNat e =>
    have hnear : Rank.nearest (digits * 10 ^ e * Rank.one) 1 + 3 < Rank.count := by
      rw [rank_ofNat] at h
      omega
    rcases Nat.lt_or_ge 308 e with hlt | hge
    · -- Only zero is this small beside such a power of ten.
      have hzero : digits = 0 := by
        by_contra hne
        have hgreat := count_le_nearest hne hlt
        omega
      rw [scaled_ofNat_of_lt hdigits hlt, if_pos hzero]
      exact ⟨⟨0, by decide⟩, rfl⟩
    · have hbound : digits * 10 ^ e * Rank.one ≤ Rank.units (Rank.count - 3) := by
        by_contra hgreat
        rw [not_le, ← Nat.mul_one (Rank.units _)] at hgreat
        have hle := Rank.le_nearest Nat.one_pos hgreat.le
        omega
      rw [scaled_ofNat hdigits hge]
      refine ⟨⟨_, Rank.nearest_mul_lt_count ?_⟩, Number.ofRank_of_lt _ false⟩
      calc digits * Rank.one * (10 ^ e * Rank.one)
          = digits * 10 ^ e * Rank.one * Rank.one := by ring
        _ ≤ Rank.units (Rank.count - 3) * Rank.one := Nat.mul_le_mul_right _ hbound

/-! ## Integers -/

/-- An integer of 64 bits is rounded once. -/
theorem scaled_eq_number {digits : Nat} (h : digits < UInt64.size) :
    scaled ⟨digits, 0⟩ = number false ⟨digits, 0⟩ := by
  have hone : Rank.units (Rank.nearest (10 ^ 0 * Rank.one) 1) = Rank.one := by decide +kernel
  have hscaled := scaled_ofNat h (Nat.zero_le 308)
  rw [hone, Rank.nearest_units Rank.one_pos] at hscaled
  have hrank := rank_ofNat digits 0
  rw [Nat.pow_zero, Nat.mul_one] at hrank
  rw [number]
  show scaled ⟨digits, .ofNat 0⟩ = Number.ofRank false (rank ⟨digits, .ofNat 0⟩)
  rw [hscaled, hrank]
  exact (Number.ofRank_min ..).symm

end Decimal

end LooseRecords
