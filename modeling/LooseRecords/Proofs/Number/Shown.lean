import LooseRecords.Number.Display
import LooseRecords.Proofs.Number.Fewest

/-!
# Displayed numbers and their shortest digits

`Shown` says how digits with a point are written for display, in one of four shapes. A number
displays its shortest digits if its text has that shape for the fewest digits that read back.
Numbers with a fraction, numbers from `10 ^ 21` on and whole numbers below `2 ^ 53` always do; the
whole numbers in between are displayed with all their digits, which are often more than needed:
`Number.display_shortest_iff`.
-/

namespace LooseRecords

namespace Rank

/-! ## Whole magnitudes -/

/-- A number of at most 53 bits is a magnitude, in whatever steps it is counted. -/
theorem units_floor_mul_pow {whole : Nat} (h : whole < 2 ^ 53) (k : Nat) :
    units (floor (whole * 2 ^ k)) = whole * 2 ^ k := by
  rw [units_floor, Nat.shiftLeft_eq, Nat.shiftRight_eq_div_pow]
  apply Nat.div_mul_cancel
  rcases Nat.eq_zero_or_pos whole with hzero | hpos
  · rw [hzero, Nat.zero_mul]
    exact Nat.dvd_zero _
  · have hne : whole * 2 ^ k ≠ 0 := (Nat.mul_pos hpos (Nat.two_pow_pos k)).ne'
    have hlog : Nat.log2 (whole * 2 ^ k) < 53 + k := by
      rw [Nat.log2_lt hne, Nat.pow_add]
      exact Nat.mul_lt_mul_of_pos_right h (Nat.two_pow_pos k)
    exact Nat.dvd_mul_left_of_dvd (Nat.pow_dvd_pow 2 (by omega)) whole

/-- Whole numbers up to `2 ^ 53` are magnitudes. -/
theorem exists_units_eq (whole : Nat) (h : whole ≤ 2 ^ 53) :
    ∃ rank ≤ count, units rank = whole * one := by
  rcases Nat.lt_or_eq_of_le h with hlt | heq
  · have hone : one = 2 ^ 1074 := by decide +kernel
    have hunits := units_floor_mul_pow hlt 1074
    rw [← hone] at hunits
    refine ⟨_, units_le_units_iff.1 ?_, hunits⟩
    calc units (floor (whole * one)) = whole * one := hunits
      _ ≤ 2 ^ 53 * one := Nat.mul_le_mul_right _ h
      _ ≤ units count := by decide +kernel
  · subst heq
    exact ⟨1076 * binade, by decide, by decide +kernel⟩

theorem ne_zero_of_units {rank whole : Nat} (h : units rank = whole * one) (hpos : 0 < rank) :
    whole ≠ 0 := by
  rintro rfl
  rw [Nat.zero_mul, units_eq_zero_iff] at h
  omega

theorem value_of_units {rank whole : Nat} (h : units rank = whole * one) : value rank = whole := by
  have hone : (one : ℚ) ≠ 0 := by exact_mod_cast one_pos.ne'
  rw [value, h, Nat.cast_mul, mul_div_assoc, div_self hone, mul_one]

end Rank

namespace Decimal

open Number

/-- The digits of a whole number less the zeros at their end, and its point behind these zeros. -/
theorem digitsAndPoint_whole (whole : Nat) :
    ∃ n, Nat.toDigits 10 whole = (Layout.digitsAndPoint ⟨whole, 0⟩).1 ++ Layout.zeros n ∧
      (Layout.digitsAndPoint ⟨whole, 0⟩).2 =
        ((Layout.digitsAndPoint ⟨whole, 0⟩).1.length + n : Nat) := by
  obtain ⟨n, hdigits, hpoint⟩ := Layout.digitsAndPoint_eq ⟨whole, 0⟩
  exact ⟨n, hdigits, hpoint.trans (Int.add_zero _)⟩

variable {rank whole : Nat} {other : List Char} {place : Int}

/-- The digits of a whole magnitude less the zeros at their end read back as it, and they are worth
as much, so that no others are nearer. -/
theorem shortest_of_whole (h : Rank.units rank = whole * Rank.one) (hpos : 0 < rank)
    (hle : rank ≤ Rank.count)
    (hfewest : ∀ other place, Reads rank other place →
      (Layout.digitsAndPoint ⟨whole, 0⟩).1.length ≤ other.length) :
    Shortest rank (Layout.digitsAndPoint ⟨whole, 0⟩).1 (Layout.digitsAndPoint ⟨whole, 0⟩).2 := by
  obtain ⟨hsignificant, hrank⟩ :=
    Layout.digitsAndPoint_spec (d := ⟨whole, 0⟩) (Rank.ne_zero_of_units h hpos)
  have hvalue : Decimal.value ⟨whole, 0⟩ = Rank.value rank := by
    rw [Rank.value_of_units h, value, zpow_zero, mul_one]
  have hexact : Decimal.rank ⟨whole, 0⟩ = rank := by
    rw [← Rank.rank_exact hle]
    exact rank_eq_of_value (hvalue.trans (value_exact rank).symm)
  refine ⟨⟨hsignificant.allDigits, hrank.trans hexact⟩, hfewest _ _, fun _ _ => ?_⟩
  rw [value_digitsAndPoint, hvalue, sub_self, abs_zero]
  exact abs_nonneg _

/-- Up to `2 ^ 53` what reads back as a whole number lies between those next to it. -/
theorem value_near_whole (h : Rank.units rank = whole * Rank.one) (hpos : 0 < rank)
    (hlt : whole < 2 ^ 53) {d : Decimal} (hrank : d.rank = rank) :
    (whole : ℚ) - 1 < d.value ∧ d.value < whole + 1 := by
  have hwhole := Rank.ne_zero_of_units h hpos
  obtain ⟨previous, hprevious, hlow⟩ := Rank.exists_units_eq (whole - 1) (by omega)
  obtain ⟨next, hnext, hhigh⟩ := Rank.exists_units_eq (whole + 1) hlt
  have hlower : previous < d.rank := by
    rw [hrank, ← Nat.not_le, ← Rank.units_le_units_iff, h, hlow,
      Nat.mul_le_mul_right_iff Rank.one_pos]
    omega
  have hupper : d.rank < next := by
    rw [hrank, ← Nat.not_le, ← Rank.units_le_units_iff, h, hhigh,
      Nat.mul_le_mul_right_iff Rank.one_pos]
    omega
  have habove := lt_value_of_lt_rank hprevious hlower
  have hbelow := value_lt_of_rank_lt hnext hupper
  rw [Rank.value_of_units hlow, Nat.cast_sub (Nat.one_le_iff_ne_zero.2 hwhole), Nat.cast_one]
    at habove
  rw [Rank.value_of_units hhigh, Nat.cast_add, Nat.cast_one] at hbelow
  exact ⟨habove, hbelow⟩

/-- Fewer digits with a fraction are worth less than a tenth of a whole number. -/
theorem value_lt_of_fraction (hother : AllDigits other) (hwhole : whole ≠ 0)
    (hlength : other.length < (Nat.toDigits 10 whole).length) (hfraction : place < other.length) :
    (ofPoint other place).value < whole / 10 := by
  have hnatural : (Numeral.natural other : ℚ) < whole := by
    exact_mod_cast (Numeral.natural_lt hother).trans_le (pow_le_of_lt_length hwhole hlength)
  have hexponent : place - other.length ≤ -1 := by omega
  calc (ofPoint other place).value
      = Numeral.natural other * (10 : ℚ) ^ (place - other.length) := rfl
    _ ≤ Numeral.natural other * (10 : ℚ) ^ (-1 : Int) :=
        mul_le_mul_of_nonneg_left (zpow_le_zpow_right₀ (by norm_num) hexponent) (Nat.cast_nonneg _)
    _ = Numeral.natural other / 10 := by rw [zpow_neg_one, div_eq_mul_inv]
    _ < whole / 10 := by linarith

/-- Up to `2 ^ 53` no fewer digits read back as a whole number than its own, less the zeros at the
end. -/
theorem length_le_of_reads (h : Rank.units rank = whole * Rank.one) (hpos : 0 < rank)
    (hlt : whole < 2 ^ 53) (hreads : Reads rank other place) :
    (Layout.digitsAndPoint ⟨whole, 0⟩).1.length ≤ other.length := by
  have hwhole := Rank.ne_zero_of_units h hpos
  obtain ⟨habove, hbelow⟩ := value_near_whole h hpos hlt hreads.rank_eq
  rcases lt_or_ge place other.length with hfraction | hinteger
  · -- With a fraction: it is not so near to the whole number as that.
    by_contra hfewer
    obtain ⟨n, hdigits, -⟩ := digitsAndPoint_whole whole
    have hlength : other.length < (Nat.toDigits 10 whole).length := by
      have hsum := congrArg List.length hdigits
      rw [List.length_append] at hsum
      omega
    have htenth := value_lt_of_fraction hreads.allDigits hwhole hlength hfraction
    have hten : 10 ≤ 10 ^ other.length :=
      Nat.le_pow (List.length_pos_iff.2 (hreads.ne_nil hpos))
    have hten' : (10 : ℚ) ≤ whole := by
      exact_mod_cast hten.trans (pow_le_of_lt_length hwhole hlength)
    linarith
  · -- Without a fraction: it is the whole number itself.
    obtain ⟨k, hk⟩ := Int.le.dest hinteger
    have hexponent : place - other.length = (k : Int) := by omega
    have hvalue : (ofPoint other place).value = (Numeral.natural other * 10 ^ k : Nat) := by
      rw [value, ofPoint, hexponent, zpow_natCast]
      push_cast
      rfl
    rw [hvalue] at habove hbelow
    have hlow : whole < Numeral.natural other * 10 ^ k + 1 := by
      have hcast : (whole : ℚ) < (Numeral.natural other * 10 ^ k : Nat) + 1 := by linarith
      exact_mod_cast hcast
    have hhigh : Numeral.natural other * 10 ^ k < whole + 1 := by exact_mod_cast hbelow
    have heq : Numeral.natural other * 10 ^ k = whole := by omega
    have hsame : (ofPoint other place).value = Decimal.value ⟨whole, 0⟩ := by
      rw [hvalue, heq, value, zpow_zero, mul_one]
    exact length_digitsAndPoint_le (d := ⟨whole, 0⟩) hwhole hreads.allDigits hsame

end Decimal

namespace Number

open Decimal

/-! ## The shapes of displayed numbers -/

/-- How digits with a point are displayed. -/
inductive Shown (digits : List Char) (point : Int) : List Char → Prop
  /-- Whole numbers are padded with zeros. -/
  | whole (hlow : digits.length ≤ point) (hhigh : point ≤ 21) :
    Shown digits point (digits ++ Layout.zeros (point - digits.length).toNat)
  /-- The point stands among the digits. -/
  | among (hlow : 0 < point) (hhigh : point ≤ 21) (hlength : point < digits.length) :
    Shown digits point (digits.take point.toNat ++ '.' :: digits.drop point.toNat)
  /-- The point stands in front of the digits. -/
  | front (hlow : -6 < point) (hhigh : point ≤ 0) :
    Shown digits point ('0' :: '.' :: (Layout.zeros (-point).toNat ++ digits))
  /-- The point stands behind the first digit, and its place is given as an exponent. -/
  | scientific {first : Char} {rest : List Char} (hdigits : digits = first :: rest)
    (hpoint : point ≤ -6 ∨ 21 < point) :
    Shown digits point (first :: ((if rest = [] then [] else '.' :: rest) ++
      'e' :: (if point - 1 < 0 then '-' else '+') :: Nat.toDigits 10 (point - 1).natAbs))

/-- The number displays its shortest digits. -/
def DisplaysShortest (negative : Bool) (rank : Fin Rank.count) : Prop :=
  ∃ digits point text, Shortest rank.val digits point ∧ Shown digits point text ∧
    (finite negative rank).display = signChars negative ++ text

/-- A magnitude that is not displayed whole is displayed in one of the four shapes. -/
theorem shown_magnitude {rank : Nat} (hpos : 0 < rank) (hle : rank ≤ Rank.count) :
    Shown (Layout.digitsAndPoint (Rank.shortest .up rank)).1
      (Layout.digitsAndPoint (Rank.shortest .up rank)).2 (displayLayout.magnitude rank) := by
  have hne := (Layout.digitsAndPoint_spec (Rank.digits_shortest_ne_zero .up hpos hle)).1.ne_nil
  have htie : displayLayout.tie = .up := rfl
  rw [Layout.magnitude, htie]
  generalize Layout.digitsAndPoint (Rank.shortest .up rank) = pair at *
  obtain ⟨digits, point⟩ := pair
  have hlength := List.length_pos_iff.2 hne
  show Shown digits point (if displayLayout.least ≤ point && point ≤ displayLayout.greatest then
    Layout.positional false digits point else Layout.scientific digits point)
  split
  case isTrue h =>
    rw [Bool.and_eq_true, decide_eq_true_eq, decide_eq_true_eq] at h
    have hrange : -5 ≤ point ∧ point ≤ 21 := h
    rw [Layout.positional]
    split
    case isTrue hfront => exact .front (by omega) hfront
    case isFalse hbehind =>
      split
      case isTrue hamong => exact .among (by omega) hrange.2 hamong
      case isFalse hwhole =>
        have hzeros : (point - digits.length).toNat = point.toNat - digits.length := by omega
        have hshown : Shown digits point _ := .whole (not_lt.1 hwhole) hrange.2
        rw [hzeros] at hshown
        simpa using hshown
  case isFalse h =>
    rw [Bool.and_eq_true, decide_eq_true_eq, decide_eq_true_eq] at h
    have hrange : ¬ (-5 ≤ point ∧ point ≤ 21) := h
    obtain ⟨first, rest, rfl⟩ := List.exists_cons_of_ne_nil hne
    have hshown : Shown (first :: rest) point _ := .scientific rfl (by omega)
    cases rest with
    | nil => simpa [Layout.scientific] using hshown
    | cons => simpa [Layout.scientific] using hshown

theorem display_of_pos (negative : Bool) {rank : Fin Rank.count} (hpos : 0 < rank.val) :
    (finite negative rank).display = signChars negative ++ displayMagnitude rank.val := by
  have hne : (rank.val != 0) = true := by simpa using hpos.ne'
  rw [display, hne, Bool.and_true]

/-- Whole numbers below `10 ^ 21` are displayed with all their digits. -/
theorem displayMagnitude_of_whole {rank whole : Nat} (h : Rank.units rank = whole * Rank.one)
    (hlt : whole < 10 ^ 21) : displayMagnitude rank = Nat.toDigits 10 whole := by
  have hdiv : Rank.units rank / Rank.one = whole := by rw [h, Nat.mul_div_cancel _ Rank.one_pos]
  have hmod : Rank.units rank % Rank.one = 0 := by rw [h, Nat.mul_mod_left]
  have hpower : Decimal.power 21 = 10 ^ 21 := rfl
  simp only [displayMagnitude, hdiv, hmod, hpower, hlt, decide_true, Bool.and_true, if_true]

/-- All digits of a whole number are those without the zeros at the end, padded again. -/
theorem shown_toDigits {whole : Nat} (hlt : whole < 10 ^ 21) :
    Shown (Layout.digitsAndPoint ⟨whole, 0⟩).1 (Layout.digitsAndPoint ⟨whole, 0⟩).2
      (Nat.toDigits 10 whole) := by
  obtain ⟨n, hdigits, hpoint⟩ := digitsAndPoint_whole whole
  have hlength := (Nat.length_toDigits_le_iff (b := 10) (by decide) (by decide)).2 hlt
  have hsum := congrArg List.length hdigits
  rw [List.length_append, Layout.zeros, List.length_replicate] at hsum
  have hzeros : ((Layout.digitsAndPoint ⟨whole, 0⟩).2 -
      (Layout.digitsAndPoint ⟨whole, 0⟩).1.length).toNat = n := by omega
  have hshown : Shown (Layout.digitsAndPoint ⟨whole, 0⟩).1 (Layout.digitsAndPoint ⟨whole, 0⟩).2 _ :=
    .whole (by omega) (by omega)
  rwa [hzeros, ← hdigits] at hshown

/-- Digits alone are shown as a whole number. -/
theorem Shown.eq_of_allDigits {digits text : List Char} {point : Int} (h : Shown digits point text)
    (htext : AllDigits text) : ∃ n, text = digits ++ Layout.zeros n := by
  have hpoint : ¬ '.'.isDigit = true := by decide
  have hexponent : ¬ 'e'.isDigit = true := by decide
  cases h with
  | whole => exact ⟨_, rfl⟩
  | among => exact absurd (htext '.' (by simp)) hpoint
  | front => exact absurd (htext '.' (by simp)) hpoint
  | scientific => exact absurd (htext 'e' (by simp)) hexponent

/-- A whole number below `10 ^ 21` that displays its shortest digits has none to spare. -/
theorem DisplaysShortest.length_le {negative : Bool} {rank : Fin Rank.count}
    (h : DisplaysShortest negative rank) (hpos : 0 < rank.val) {whole : Nat}
    (hunits : Rank.units rank.val = whole * Rank.one) (hlt : whole < 10 ^ 21)
    {other : List Char} {place : Int} (hreads : Reads rank.val other place) :
    (Layout.digitsAndPoint ⟨whole, 0⟩).1.length ≤ other.length := by
  obtain ⟨digits, point, text, hshortest, hshown, hdisplay⟩ := h
  rw [display_of_pos negative hpos, displayMagnitude_of_whole hunits hlt] at hdisplay
  have htext := List.append_cancel_left hdisplay
  rw [← htext] at hshown
  obtain ⟨n, hn⟩ := hshown.eq_of_allDigits (.toDigits whole)
  have hnatural := Numeral.natural_mul_pow hn
  have hvalue : (ofPoint digits (digits.length + n)).value = Decimal.value ⟨whole, 0⟩ := by
    rw [value, value, ofPoint, ← hnatural, add_sub_cancel_left, zpow_natCast, zpow_zero]
    push_cast
    ring
  have hwhole := Rank.ne_zero_of_units hunits hpos
  exact (length_digitsAndPoint_le (d := ⟨whole, 0⟩) hwhole hshortest.allDigits hvalue).trans
    (hshortest.fewest hreads)

/-- A magnitude that is not displayed whole displays its shortest digits. -/
theorem displaysShortest_of_not_whole (negative : Bool) {rank : Fin Rank.count}
    (hpos : 0 < rank.val) (h : ∀ whole, Rank.units rank.val = whole * Rank.one → 10 ^ 21 ≤ whole) :
    DisplaysShortest negative rank := by
  have hle : rank.val ≤ Rank.count := rank.isLt.le
  refine ⟨_, _, _, shortest_digitsAndPoint .up hpos hle, shown_magnitude hpos hle, ?_⟩
  have hpower : Decimal.power 21 = 10 ^ 21 := rfl
  have hother : ¬ (Rank.units rank.val % Rank.one = 0 &&
      Rank.units rank.val / Rank.one < Decimal.power 21) = true := by
    intro hwhole
    rw [Bool.and_eq_true, decide_eq_true_eq, decide_eq_true_eq, hpower] at hwhole
    have hge := h _ (Nat.div_mul_cancel (Nat.dvd_of_mod_eq_zero hwhole.1)).symm
    omega
  have hmagnitude : displayMagnitude rank.val = displayLayout.magnitude rank.val := if_neg hother
  rw [display_of_pos negative hpos, hmagnitude]

/-- A whole number below `10 ^ 21` that has no digits to spare displays its shortest digits. -/
theorem displaysShortest_of_whole (negative : Bool) {rank : Fin Rank.count} (hpos : 0 < rank.val)
    {whole : Nat} (h : Rank.units rank.val = whole * Rank.one) (hlt : whole < 10 ^ 21)
    (hfewest : ∀ other place, Reads rank.val other place →
      (Layout.digitsAndPoint ⟨whole, 0⟩).1.length ≤ other.length) :
    DisplaysShortest negative rank := by
  refine ⟨_, _, _, shortest_of_whole h hpos rank.isLt.le hfewest, shown_toDigits hlt, ?_⟩
  rw [display_of_pos negative hpos, displayMagnitude_of_whole h hlt]

/-- Which positive magnitudes display their shortest digits, with either sign: all but whole numbers
from `2 ^ 53` up to `10 ^ 21`, and of those the ones whose own digits, less the zeros at the end,
are the fewest that read back. The text of a whole number below `10 ^ 21` is all its digits. -/
theorem display_shortest_iff (negative : Bool) {rank : Fin Rank.count} (hpos : 0 < rank.val) :
    ((∀ whole, Rank.units rank.val = whole * Rank.one → 2 ^ 53 ≤ whole → 10 ^ 21 ≤ whole) →
      DisplaysShortest negative rank) ∧
    ∀ whole, Rank.units rank.val = whole * Rank.one → whole < 10 ^ 21 →
      (finite negative rank).display = signChars negative ++ Nat.toDigits 10 whole ∧
      (DisplaysShortest negative rank ↔ ∀ other place, Reads rank.val other place →
        (Layout.digitsAndPoint ⟨whole, 0⟩).1.length ≤ other.length) := by
  constructor
  · intro h
    by_cases hwhole : ∃ whole, Rank.units rank.val = whole * Rank.one ∧ whole < 10 ^ 21
    · obtain ⟨whole, hunits, hlt⟩ := hwhole
      have hsmall : whole < 2 ^ 53 := by
        by_contra hge
        have := h whole hunits (not_lt.1 hge)
        omega
      exact displaysShortest_of_whole negative hpos hunits hlt
        fun _ _ hreads => length_le_of_reads hunits hpos hsmall hreads
    · exact displaysShortest_of_not_whole negative hpos fun whole hunits =>
        not_lt.1 fun hlt => hwhole ⟨whole, hunits, hlt⟩
  · intro whole hunits hlt
    refine ⟨?_, fun h _ _ => h.length_le hpos hunits hlt,
      displaysShortest_of_whole negative hpos hunits hlt⟩
    rw [display_of_pos negative hpos, displayMagnitude_of_whole hunits hlt]

/-- One is displayed by its only digit. -/
theorem display_shortest_one :
    0 < 1023 * Rank.binade ∧
      DisplaysShortest false ⟨1023 * Rank.binade, by decide⟩ ∧
      (finite false ⟨1023 * Rank.binade, by decide⟩).display = ['1'] := by
  have hpos : 0 < 1023 * Rank.binade := by decide
  have hone : Rank.units (1023 * Rank.binade) = 1 * Rank.one := by decide +kernel
  obtain ⟨hfew, hwhole⟩ := @display_shortest_iff false ⟨1023 * Rank.binade, by decide⟩ hpos
  refine ⟨hpos, hfew fun whole hunits hge => ?_, (hwhole 1 hone (by decide)).1⟩
  -- The magnitude is one, and not `2 ^ 53`.
  have heq : whole = 1 := Nat.eq_of_mul_eq_mul_right Rank.one_pos (hunits.symm.trans hone)
  omega

/-- `2 ^ 67` is displayed with all its 21 digits, where 17 digits would do. -/
theorem not_displaysShortest_two_pow :
    ofBits 0x4420000000000000 = finite false ⟨1090 * Rank.binade, by decide⟩ ∧
      (finite false ⟨1090 * Rank.binade, by decide⟩).display = "147573952589676412928".toList ∧
      ¬ DisplaysShortest false ⟨1090 * Rank.binade, by decide⟩ := by
  have hunits : Rank.units (1090 * Rank.binade) = 147573952589676412928 * Rank.one := by
    decide +kernel
  refine ⟨by decide, by decide +kernel, fun h => ?_⟩
  have hreads : Reads (1090 * Rank.binade) "14757395258967641".toList 21 :=
    ⟨List.all_eq_true.1 (by decide), by decide +kernel⟩
  have hle := h.length_le (by decide) hunits (by decide) hreads
  exact absurd hle (by decide +kernel)

end Number

end LooseRecords
