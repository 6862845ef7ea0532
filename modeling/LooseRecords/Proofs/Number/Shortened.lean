import LooseRecords.Proofs.Number.Scaled
import LooseRecords.Proofs.Number.Spelled

/-!
# Numerals read by arithmetic

The digits of a numeral that count are `Numeral.Keeps`, and `Numeral.scaled_eq_finite_iff` says
which numbers are computed for them. For integers of 64 bits that is the nearest number.
-/

namespace LooseRecords

namespace Numeral

/-! ## Digits that count -/

theorem le_ofDigitChars (digits : List Char) (number : Nat) :
    number ≤ Nat.ofDigitChars 10 digits number := by
  rw [Nat.ofDigitChars_eq_ofDigitChars_zero]
  exact (Nat.le_mul_of_pos_left number (Nat.pow_pos (by decide))).trans (Nat.le_add_right ..)

/-- As many digits stand in front as can be put behind a number of 64 bits if it is to stay one. -/
structure Fits (number : Nat) (front behind : List Char) : Prop where
  lt : Nat.ofDigitChars 10 front number < UInt64.size
  full : ∀ c rest, behind = c :: rest → UInt64.size ≤ Nat.ofDigitChars 10 (front ++ [c]) number

/-- Digits are taken as long as they fit. -/
theorem takeDigits_eq_iff {number : Nat} (hnumber : number < UInt64.size) {digits : List Char}
    {taken : Nat} {behind : List Char} :
    takeDigits number digits = (taken, behind) ↔
      ∃ front, digits = front ++ behind ∧ taken = Nat.ofDigitChars 10 front number ∧
        Fits number front behind := by
  induction digits generalizing number with
  | nil =>
    rw [takeDigits, Prod.mk.injEq]
    constructor
    · rintro ⟨rfl, rfl⟩
      exact ⟨[], rfl, rfl, hnumber, by simp⟩
    · rintro ⟨front, hdigits, rfl, -⟩
      obtain ⟨rfl, rfl⟩ := List.append_eq_nil_iff.1 hdigits.symm
      exact ⟨rfl, rfl⟩
  | cons c rest ih =>
    simp only [takeDigits]
    split
    case isTrue hlt =>
      rw [ih hlt]
      constructor
      · rintro ⟨front, rfl, rfl, hfits⟩
        exact ⟨c :: front, rfl, rfl, hfits.lt, hfits.full⟩
      · rintro ⟨front, hdigits, rfl, hfits⟩
        cases front with
        | nil => exact absurd (hfits.full c rest hdigits.symm) (Nat.not_le.2 hlt)
        | cons d front =>
          cases hdigits
          exact ⟨front, rfl, rfl, hfits.lt, hfits.full⟩
    case isFalse hge =>
      rw [Prod.mk.injEq]
      constructor
      · rintro ⟨rfl, rfl⟩
        refine ⟨[], rfl, rfl, hnumber, ?_⟩
        rintro _ _ ⟨⟩
        exact Nat.not_lt.1 hge
      · rintro ⟨front, hdigits, rfl, hfits⟩
        cases front with
        | nil => exact ⟨rfl, hdigits⟩
        | cons d front =>
          cases hdigits
          exact absurd ((le_ofDigitChars front _).trans_lt hfits.lt) hge

/-- What counts of a numeral: the digits that fit in front of the point, and those behind it that
fit with them. Digits that are left out in front of the point are made up for by the power of ten.
-/
inductive Keeps (n : Numeral) : Decimal → Prop where
  | parts {front left start ignored : List Char} (hwhole : n.whole = front ++ left)
    (hfraction : n.fraction.getD [] = start ++ ignored) (hfront : Fits 0 front left)
    (hstart : Fits (natural front) start ignored) :
    Keeps n ⟨natural (front ++ start), n.exponent - start.length + left.length⟩

theorem Keeps.lt {n : Numeral} {d : Decimal} (h : n.Keeps d) : d.digits < UInt64.size := by
  obtain @⟨front, left, start, ignored, -, -, -, hstart⟩ := h
  rw [natural, Nat.ofDigitChars_append]
  exact hstart.lt

theorem Keeps.eq_shortened {n : Numeral} {d : Decimal} (h : n.Keeps d) : d = n.shortened := by
  obtain @⟨front, left, start, ignored, hwhole, hfraction, hfront, hstart⟩ := h
  have htaken : takeDigits 0 n.whole = (natural front, left) :=
    (takeDigits_eq_iff (by decide)).2 ⟨front, hwhole, rfl, hfront⟩
  have htaken' : takeDigits (natural front) (n.fraction.getD []) =
      (natural (front ++ start), ignored) :=
    (takeDigits_eq_iff hfront.lt).2
      ⟨start, hfraction, Nat.ofDigitChars_append 0, hstart⟩
  have hexponent : n.decimal.exponent = n.exponent - (start.length + ignored.length) := by
    show n.exponent - ((n.fraction.getD []).length : Int) = _
    rw [hfraction, List.length_append]
    push_cast
    rfl
  simp only [shortened, htaken, htaken', hexponent, Decimal.mk.injEq, true_and]
  ring

/-- What is left of a numeral is what counts of it. -/
theorem keeps_shortened (n : Numeral) : n.Keeps n.shortened := by
  obtain ⟨⟨whole, left⟩, hleft⟩ : ∃ pair, takeDigits 0 n.whole = pair := ⟨_, rfl⟩
  obtain ⟨front, hwhole, rfl, hfront⟩ := (takeDigits_eq_iff (by decide)).1 hleft
  obtain ⟨⟨digits, ignored⟩, hignored⟩ :
      ∃ pair, takeDigits (natural front) (n.fraction.getD []) = pair := ⟨_, rfl⟩
  obtain ⟨start, hfraction, -, hstart⟩ := (takeDigits_eq_iff hfront.lt).1 hignored
  have hkeeps : n.Keeps _ := .parts hwhole hfraction hfront hstart
  rwa [hkeeps.eq_shortened] at hkeeps

/-! ## What is computed -/

/-- The number that is computed for a numeral is finite exactly if finite arithmetic gives it for
the digits that count. -/
theorem scaled_eq_finite_iff {n : Numeral} {sign : Bool} {rank : Fin Rank.count} :
    n.scaled = .finite sign rank ↔ n.negative = sign ∧ ∃ d, n.Keeps d ∧ d.Computes rank := by
  have hkeeps := n.keeps_shortened
  have hcomputes : (∃ d, n.Keeps d ∧ d.Computes rank) ↔
      n.shortened.scaled = .finite false rank := by
    rw [Decimal.scaled_eq_finite_iff hkeeps.lt, and_iff_right rfl]
    constructor
    · rintro ⟨d, hd, hrank⟩
      rwa [← hd.eq_shortened]
    · intro hrank
      exact ⟨_, hkeeps, hrank⟩
  rw [hcomputes, scaled]
  cases hscaled : n.shortened.scaled with
  | finite other place =>
    obtain ⟨rfl, -⟩ := (Decimal.scaled_eq_finite_iff hkeeps.lt).1 hscaled
    simp
  | nan | infinite => simp

/-- What counts is worth no more than the numeral, if no digits are left out in front of the point.
-/
theorem Keeps.value_le {n : Numeral} {d : Decimal} (h : n.Keeps d)
    (hwhole : natural n.whole < UInt64.size) : d.value ≤ n.decimal.value := by
  obtain @⟨front, left, start, ignored, hfront, hfraction, hfits, -⟩ := h
  obtain rfl : left = [] := by
    cases left with
    | nil => rfl
    | cons c rest =>
      have hfull := hfits.full c rest rfl
      rw [hfront, natural, List.append_cons, Nat.ofDigitChars_append] at hwhole
      have hle := le_ofDigitChars rest (Nat.ofDigitChars 10 (front ++ [c]) 0)
      omega
  rw [List.append_nil] at hfront
  have hdecimal : n.decimal = ⟨natural (front ++ start ++ ignored),
      n.exponent - ((start ++ ignored).length : Int)⟩ := by
    rw [← hfront, List.append_assoc, ← hfraction]
    rfl
  have hdigits : (natural (front ++ start) : ℚ) * 10 ^ ignored.length ≤
      natural (front ++ start ++ ignored) := by
    rw [natural_append (front ++ start)]
    push_cast
    exact le_add_of_nonneg_right (Nat.cast_nonneg _)
  have hexponent : n.exponent - (start.length : Int) + ([] : List Char).length =
      ignored.length + (n.exponent - ((start ++ ignored).length : Int)) := by
    rw [List.length_append, List.length_nil]
    push_cast
    ring
  rw [hdecimal, Decimal.value, Decimal.value, hexponent, zpow_add₀ (by norm_num), zpow_natCast,
    ← mul_assoc]
  exact mul_le_mul_of_nonneg_right hdigits (zpow_nonneg (by norm_num) _)

/-- The number that is computed for a numeral is finite if the nearest number is not one of the
three greatest. -/
theorem exists_scaled_eq_finite {n : Numeral} (hwhole : natural n.whole < UInt64.size)
    (h : n.decimal.rank + 3 < Rank.count) : ∃ rank, n.scaled = .finite n.negative rank := by
  have hkeeps := n.keeps_shortened
  have hle := Decimal.rank_le_rank (hkeeps.value_le hwhole)
  obtain ⟨rank, hrank⟩ := Decimal.exists_scaled_eq_finite hkeeps.lt (by omega)
  exact ⟨rank, by rw [scaled, hrank]⟩

/-! ## Integers -/

/-- All digits count if the number that they make has 64 bits. -/
theorem shortened_eq_decimal {n : Numeral}
    (h : natural (n.whole ++ n.fraction.getD []) < UInt64.size) : n.shortened = n.decimal := by
  rw [natural, Nat.ofDigitChars_append] at h
  have hkeeps : n.Keeps _ := .parts (List.append_nil _).symm (List.append_nil _).symm
    ⟨(le_ofDigitChars _ _).trans_lt h, by simp⟩ ⟨h, by simp⟩
  rw [← hkeeps.eq_shortened]
  show Decimal.mk _ (_ + 0) = _
  rw [Int.add_zero]
  rfl

theorem scaled_of_shortened {n : Numeral} (h : n.shortened.scaled = n.decimal.number false) :
    n.scaled = n.number := by
  rw [scaled, h, number, Decimal.number, Decimal.number]
  rcases Nat.lt_or_ge n.decimal.rank Rank.count with hlt | hge
  · rw [Number.ofRank_of_lt hlt, Number.ofRank_of_lt hlt]
  · rw [Number.ofRank_of_le hge, Number.ofRank_of_le hge]

/-- An integer of 64 bits is read as the nearest number. -/
theorem scaled_eq_number {n : Numeral} {i : Int} (h : n.toInt? = some i)
    (hlow : Int64.minValue.toInt ≤ i) (hhigh : i < UInt64.size) : n.scaled = n.number := by
  obtain ⟨hfraction, hpower, -, hwhole⟩ := eq_of_toInt? h
  have hdigits : natural (n.whole ++ n.fraction.getD []) < UInt64.size := by
    have hmin : Int64.minValue.toInt = -9223372036854775808 := rfl
    have hmax : UInt64.size = 18446744073709551616 := rfl
    rw [hfraction, Option.getD_none, List.append_nil, hwhole]
    omega
  obtain ⟨sign, whole, fraction, power⟩ := n
  cases hfraction
  cases hpower
  apply scaled_of_shortened
  rw [shortened_eq_decimal hdigits]
  exact Decimal.scaled_eq_number hdigits

end Numeral

end LooseRecords
