import LooseRecords.Proofs.Text.Blank
import LooseRecords.Proofs.Value.Reloaded
import LooseRecords.Value.Display

/-!
# Displayed numbers read back

The display text of a finite number is that of a numeral, `Number.displayNumeral`.
`Number.read_display` says that the text of any number stands for the number that it shows, whether
it is written whole, with a point, with an exponent or as an infinity.
-/

namespace LooseRecords

/-! ## Numerals among texts -/

namespace Numeral

/-- A numeral of JSON has digits. -/
theorem hasDigits_of_isJson {n : Numeral} (h : n.isJson = true) : n.hasDigits = true := by
  have hne : n.whole ≠ [] := by
    intro hnil
    simp [isJson, hnil] at h
  simp [hasDigits, hne]

end Numeral

namespace Number

/-- A numeral does not announce a radix. -/
theorem radixLiteral?_chars {n : Numeral} (h : n.WellFormed) : radixLiteral? n.chars = none := by
  unfold radixLiteral?
  split
  case h_1 c digits htext =>
    have hc : Numeral.Part c := n.mem_chars h c (by simp [htext])
    -- None of the letters that announce a radix is one of a numeral.
    have hne : ∀ d : Char, ¬ Numeral.Part d → c ≠ d :=
      fun d hd heq => hd (heq ▸ hc)
    rw [if_neg (by simp [hne 'x' (by decide), hne 'X' (by decide)]),
      if_neg (by simp [hne 'o' (by decide), hne 'O' (by decide)]),
      if_neg (by simp [hne 'b' (by decide), hne 'B' (by decide)])]
  case h_2 => rfl

/-- The text of a numeral with digits stands for its number. -/
theorem read_chars {n : Numeral} (h : n.WellFormed) (hdigits : n.hasDigits = true) :
    read n.chars = n.number := by
  have htrim : Text.trim n.chars = n.chars :=
    Text.trim_of_no_blank fun c hc => Text.isBlank_of_numeral (n.mem_chars h c hc)
  have hne : n.chars ≠ [] := by
    intro hnil
    cases hfraction : n.fraction <;>
      simp_all [Numeral.chars, Numeral.hasDigits, Numeral.fractionChars]
  have hinfinity : n.chars ≠ "Infinity".toList := Numeral.chars_ne h (by decide)
  have hplus : n.chars ≠ "+Infinity".toList := Numeral.chars_ne h (by decide)
  have hminus : n.chars ≠ "-Infinity".toList := Numeral.chars_ne h (by decide)
  rw [read, htrim, readTrimmed]
  simp only [hne, hinfinity, hplus, hminus, decide_false, Bool.or_false, Bool.false_eq_true,
    if_false, radixLiteral?_chars h, Numeral.ofChars?_chars h, hdigits, if_true]

/-! ## Displayed numbers -/

/-- The numeral that a finite number is displayed as. -/
def displayNumeral (negative : Bool) (rank : Nat) : Numeral :=
  let whole := Rank.units rank / Rank.one
  if Rank.units rank % Rank.one = 0 && whole < Decimal.power 21 then
    Numeral.signed { sign := none, whole := Nat.toDigits 10 whole, fraction := none, power := none }
      (negative && rank != 0)
  else displayLayout.numeral negative rank

namespace displayNumeral

/-- A magnitude that is not displayed whole is positive. -/
theorem pos_of_not_whole {rank : Nat}
    (h : ¬ (Rank.units rank % Rank.one = 0 &&
      Rank.units rank / Rank.one < Decimal.power 21) = true) :
    0 < rank := by
  rcases Nat.eq_zero_or_pos rank with hzero | hpos
  · rw [(Rank.units_eq_zero_iff rank).2 hzero] at h
    exact absurd (by decide +kernel) h
  · exact hpos

theorem chars (negative : Bool) (rank : Fin Rank.count) :
    (displayNumeral negative rank.val).chars = (finite negative rank).display := by
  simp only [displayNumeral, display, displayMagnitude]
  split
  case isTrue =>
    rw [Numeral.chars_signed rfl]
    simp [Numeral.chars, Numeral.fractionChars, Numeral.powerChars]
  case isFalse h =>
    have hsign : (negative && rank.val != 0) = negative := by
      simp [Nat.ne_of_gt (pos_of_not_whole h)]
    rw [Layout.chars_numeral, hsign]

theorem spec (negative : Bool) (rank : Fin Rank.count) :
    (displayNumeral negative rank.val).WellFormed ∧
      (displayNumeral negative rank.val).hasDigits = true := by
  simp only [displayNumeral]
  split
  case isTrue =>
    refine ⟨Numeral.WellFormed.signed ⟨by simp, .toDigits _, by simp, by simp⟩ _, ?_⟩
    simp [Numeral.hasDigits, Numeral.signed]
  case isFalse h =>
    obtain ⟨hwell, hjson⟩ :=
      Layout.numeral_spec displayLayout negative (pos_of_not_whole h) rank.isLt
    exact ⟨hwell, Numeral.hasDigits_of_isJson hjson⟩

/-- The numeral denotes the number that is displayed, up to the sign of zero. -/
theorem number (negative : Bool) (rank : Fin Rank.count) :
    (displayNumeral negative rank.val).number = .finite (negative && rank.val != 0) rank := by
  simp only [displayNumeral]
  split
  case isTrue h =>
    have hmod : Rank.units rank.val % Rank.one = 0 :=
      of_decide_eq_true (Bool.and_eq_true_iff.1 h).1
    have hunits : Rank.units rank.val / Rank.one * Rank.one = Rank.units rank.val :=
      Nat.div_mul_cancel (Nat.dvd_of_mod_eq_zero hmod)
    obtain ⟨whole, hdef⟩ : ∃ whole, whole = Rank.units rank.val / Rank.one := ⟨_, rfl⟩
    rw [← hdef] at hunits ⊢
    have hrank : Decimal.rank ⟨whole, 0⟩ = rank.val := by
      apply Decimal.rank_of_units _ (Nat.le_of_lt rank.isLt)
      show whole * 1 * Rank.one = Rank.units rank.val * 1
      rw [Nat.mul_one, Nat.mul_one, hunits]
    rw [Numeral.number, Numeral.negative_signed, Numeral.decimal_signed]
    simp only [Numeral.decimal, Option.getD_none, List.append_nil, Numeral.natural_toDigits]
    show Decimal.number (negative && rank.val != 0) ⟨whole, 0⟩ = _
    rw [Decimal.number, hrank, ofRank, dif_pos rank.isLt]
  case isFalse h =>
    have hpos := pos_of_not_whole h
    have hsign : (negative && rank.val != 0) = negative := by simp [Nat.ne_of_gt hpos]
    rw [Layout.number_numeral displayLayout negative hpos rank.isLt, hsign]

end displayNumeral

/-- A finite number is zero if its magnitude is. -/
theorem isZero_finite_iff (negative : Bool) (rank : Fin Rank.count) :
    (finite negative rank).isZero = true ↔ rank.val = 0 := by
  cases negative <;> simp [isZero, place?]

/-- The number, and zero for a negative zero. -/
def unsignedZero (n : Number) : Number := if n.isZero then zero else n

theorem unsignedZero_finite (negative : Bool) (rank : Fin Rank.count) :
    (finite negative rank).unsignedZero = .finite (negative && rank.val != 0) rank := by
  rw [unsignedZero]
  by_cases hzero : rank.val = 0
  · rw [if_pos ((isZero_finite_iff negative rank).2 hzero)]
    obtain rfl : rank = ⟨0, by decide⟩ := Fin.ext hzero
    cases negative <;> rfl
  · rw [if_neg (mt (isZero_finite_iff negative rank).1 hzero)]
    simp [hzero]

/-- The display text of a number stands for that number. Neither zero has a sign in it. -/
theorem read_display (n : Number) : read n.display = if n.isZero then zero else n := by
  cases n with
  | nan => decide
  | infinite negative => cases negative <;> decide
  | finite negative rank =>
    obtain ⟨hwell, hdigits⟩ := displayNumeral.spec negative rank
    rw [← displayNumeral.chars, read_chars hwell hdigits, displayNumeral.number]
    exact (unsignedZero_finite negative rank).symm

end Number

end LooseRecords
