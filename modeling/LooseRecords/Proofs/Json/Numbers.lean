import LooseRecords.Json.Document
import LooseRecords.Json.Text
import LooseRecords.Proofs.Number.Layout
import LooseRecords.Proofs.Number.Shortened

/-!
# Written numbers

The numerals that integers and doubles are written as in JSON, and what they are read as. Integers
of 64 bits are read as themselves. A double is read as a finite double, `Number.reread`, which is
the same one wherever the arithmetic of the reader finds the nearest number.
-/

namespace LooseRecords

namespace Json

/-! ## Written numbers -/

/-- The numeral of an integer. -/
def integerNumeral (i : Int) : Numeral :=
  Numeral.signed
    { sign := none, whole := Nat.toDigits 10 i.natAbs, fraction := none, power := none } (i < 0)

namespace integerNumeral

theorem chars (i : Int) : (integerNumeral i).chars = integerText i := by
  rw [integerNumeral, Numeral.chars_signed rfl, integerText]
  simp [Numeral.chars, Numeral.fractionChars, Numeral.powerChars]

theorem wellFormed (i : Int) : (integerNumeral i).WellFormed :=
  Numeral.WellFormed.signed ⟨by simp, .toDigits _, by simp, by simp⟩ _

theorem isJson (i : Int) : (integerNumeral i).isJson = true := by
  apply Numeral.isJson_signed
  by_cases h : i.natAbs = 0
  · simp [Numeral.isJson, h]
  · obtain ⟨c, rest, hdigits, hc⟩ := (Significant.toDigits h).head
    simp [Numeral.isJson, hdigits, hc]

/-- An integer reads back as an integer. -/
theorem toInt? (i : Int) : (integerNumeral i).toInt? = some i := by
  have hwhole : Numeral.natural (integerNumeral i).whole = i.natAbs := Numeral.natural_toDigits _
  have hnegative : (integerNumeral i).negative = decide (i < 0) := Numeral.negative_signed ..
  have hplain : (integerNumeral i).fraction.isNone && (integerNumeral i).power.isNone := rfl
  rw [Numeral.toInt?, if_pos hplain, hwhole, hnegative]
  by_cases h : i < 0
  · have hne : i.natAbs ≠ 0 := by omega
    simp only [h, decide_true, if_true, if_neg hne, Option.some.injEq]
    omega
  · simp only [h, decide_false, Bool.false_eq_true, if_false, Option.some.injEq]
    omega

/-- An integer of 64 bits is the value of its numeral. -/
theorem numberValue? {i : Int} (hlow : Int64.minValue.toInt ≤ i) (hhigh : i < UInt64.size) :
    Document.numberValue? (integerNumeral i) = some (.integer i) := by
  rw [Document.numberValue?, toInt?]
  exact if_pos (by rw [Bool.and_eq_true, decide_eq_true_eq, decide_eq_true_eq]; exact ⟨hlow, hhigh⟩)

end integerNumeral

/-- The numeral of a finite double. -/
def doubleNumeral (negative : Bool) (rank : Nat) : Numeral :=
  if rank = 0 then
    Numeral.signed { sign := none, whole := ['0'], fraction := some ['0'], power := none } negative
  else doubleLayout.numeral negative rank

namespace doubleNumeral

theorem chars (negative : Bool) (rank : Fin Rank.count) :
    (doubleNumeral negative rank.val).chars = doubleText (.finite negative rank) := by
  rw [doubleNumeral, doubleText]
  split
  · rw [Numeral.chars_signed rfl]
    rfl
  · exact Number.Layout.chars_numeral ..

theorem spec (negative : Bool) (rank : Fin Rank.count) :
    (doubleNumeral negative rank.val).WellFormed ∧
      (doubleNumeral negative rank.val).isJson = true := by
  have hzero : AllDigits ['0'] := .zeros 1
  rw [doubleNumeral]
  split
  · refine ⟨Numeral.WellFormed.signed ⟨by simp, hzero, ?_, by simp⟩ _,
      Numeral.isJson_signed rfl _⟩
    intro digits hdigits
    cases hdigits
    exact hzero
  · exact Number.Layout.numeral_spec doubleLayout negative (by omega) rank.isLt

/-- The double is the number nearest to its numeral. -/
theorem number (negative : Bool) (rank : Fin Rank.count) :
    (doubleNumeral negative rank.val).number = .finite negative rank := by
  rw [doubleNumeral]
  split
  case isTrue h =>
    obtain rfl : rank = ⟨0, by decide⟩ := Fin.ext h
    rw [Numeral.number, Numeral.negative_signed, Numeral.decimal_signed]
    rfl
  case isFalse h =>
    exact Number.Layout.number_numeral doubleLayout negative (by omega) rank.isLt

/-- A double is never written as an integer. -/
theorem toInt? (negative : Bool) (rank : Nat) : (doubleNumeral negative rank).toInt? = none := by
  rw [doubleNumeral]
  split
  · rfl
  · exact Number.Layout.toInt?_shape rfl ..

/-- The digits in front of the point are an integer of 64 bits. -/
theorem natural_whole_lt (negative : Bool) (rank : Fin Rank.count) :
    Numeral.natural (doubleNumeral negative rank.val).whole < UInt64.size := by
  have hlength : (doubleNumeral negative rank.val).whole.length ≤ 16 := by
    have hgreatest : doubleLayout.greatest = 16 := rfl
    rw [doubleNumeral]
    split
    case isTrue =>
      have hone : (['0'] : List Char).length ≤ 16 := by decide
      exact hone
    case isFalse =>
      have hlength := @Number.Layout.length_whole_numeral doubleLayout (by decide) negative rank
      omega
  calc Numeral.natural (doubleNumeral negative rank.val).whole
      < 10 ^ (doubleNumeral negative rank.val).whole.length :=
        Numeral.natural_lt (spec negative rank).1.whole
    _ ≤ 10 ^ 16 := Nat.pow_le_pow_right (by decide) hlength
    _ < UInt64.size := by decide

/-- Each of the three greatest doubles is read as a finite double. -/
theorem isFinite_scaled_greatest : ∀ (negative : Bool) (k : Fin 3),
    (doubleNumeral negative (Rank.count - 1 - k)).scaled.isFinite = true := by
  decide +kernel

/-- The numeral of a finite double is read as a finite double. -/
theorem exists_scaled (negative : Bool) (rank : Fin Rank.count) :
    ∃ again, (doubleNumeral negative rank.val).scaled = .finite negative again := by
  have hnumber := number negative rank
  obtain ⟨hnegative, -⟩ := Numeral.number_eq_finite_iff.1 hnumber
  rw [Numeral.number, Decimal.number, Number.ofRank_eq_finite_iff] at hnumber
  by_cases hfar : rank.val + 3 < Rank.count
  · rw [← hnumber.2] at hfar
    have hscaled := Numeral.exists_scaled_eq_finite (natural_whole_lt negative rank) hfar
    rwa [hnegative] at hscaled
  · have hrank : rank.val = Rank.count - 1 - (Rank.count - 1 - rank.val) := by omega
    have hfinite := isFinite_scaled_greatest negative ⟨Rank.count - 1 - rank.val, by omega⟩
    rw [← hrank] at hfinite
    obtain ⟨sign, again, hscaled⟩ := Number.isFinite_iff.1 hfinite
    obtain ⟨rfl, -⟩ := Numeral.scaled_eq_finite_iff.1 hscaled
    exact ⟨again, by rw [hscaled, hnegative]⟩

end doubleNumeral

end Json

/-! ## Written numbers read again -/

namespace Number

/-- What a number is after it was written and read. -/
def reread : Number → Number
  | .finite negative rank => (Json.doubleNumeral negative rank.val).scaled
  | n => n

/-- A finite number remains finite and keeps its sign. -/
theorem exists_reread_finite (negative : Bool) (rank : Fin Rank.count) :
    ∃ again, (finite negative rank).reread = .finite negative again :=
  Json.doubleNumeral.exists_scaled negative rank

end Number

namespace Json

/-- A finite double is read as one, though it need not be the same. -/
theorem numberValue?_doubleNumeral (negative : Bool) (rank : Fin Rank.count) :
    Document.numberValue? (doubleNumeral negative rank.val) =
      some (.double (Number.finite negative rank).reread) := by
  obtain ⟨again, hagain⟩ := Number.exists_reread_finite negative rank
  have hscaled : (doubleNumeral negative rank.val).scaled = .finite negative again := hagain
  rw [Document.numberValue?, doubleNumeral.toInt?, hagain]
  show Document.numberValue?.finite? _ = _
  rw [Document.numberValue?.finite?, hscaled]

end Json

end LooseRecords
