import LooseRecords.Proofs.Number.Nearest
import LooseRecords.Proofs.Number.Numeral

/-!
# What numerals denote

The rational number that a numeral denotes, read off its parts, and the shapes of numerals that are
admitted in different places. The number of a numeral is the one nearest to what it denotes:
`Numeral.isNearest_number_iff`.
-/

namespace LooseRecords

namespace Number

theorem ofRank_eq_finite_iff {negative sign : Bool} {rank : Nat} {place : Fin Rank.count} :
    ofRank negative rank = .finite sign place ↔ negative = sign ∧ rank = place := by
  rw [ofRank]
  split
  case isTrue h => simp [Fin.ext_iff]
  case isFalse h =>
    have hne : rank ≠ place := fun heq => h (heq ▸ place.isLt)
    simp [hne]

end Number

namespace Numeral

/-! ## Magnitudes -/

/-- The power of ten that a numeral denotes. -/
def exponent (n : Numeral) : ℤ :=
  match n.power with
  | none => 0
  | some (negative, digits) => if negative then -(natural digits : ℤ) else natural digits

/-- What a numeral denotes, apart from its sign. -/
def magnitude (n : Numeral) : ℚ :=
  (natural n.whole + natural (n.fraction.getD []) / 10 ^ (n.fraction.getD []).length) *
    10 ^ n.exponent

theorem value_decimal (n : Numeral) : n.decimal.value = n.magnitude := by
  obtain ⟨fraction, hfraction⟩ : ∃ fraction, fraction = n.fraction.getD [] := ⟨_, rfl⟩
  have hdecimal : n.decimal =
      ⟨natural (n.whole ++ fraction), n.exponent - (fraction.length : ℤ)⟩ := by
    rw [hfraction]
    rfl
  have hshift : (10 : ℚ) ^ (n.exponent - (fraction.length : ℤ)) =
      10 ^ n.exponent / 10 ^ fraction.length := by
    rw [zpow_sub₀ (by norm_num), zpow_natCast]
  rw [hdecimal, Decimal.value, magnitude, ← hfraction, natural_append, hshift]
  push_cast
  field_simp

/-- The number of a numeral is the one nearest to what it denotes. -/
theorem isNearest_number_iff (n : Numeral) (m : Number) :
    m.IsNearest n.negative n.magnitude ↔ m = n.number := by
  rw [← value_decimal, Decimal.isNearest_number_iff, number]

/-- The number of a numeral is finite exactly if a finite magnitude is nearest to what it denotes.
-/
theorem number_eq_finite_iff {n : Numeral} {sign : Bool} {rank : Fin Rank.count} :
    n.number = .finite sign rank ↔ n.negative = sign ∧ Rank.NearestTo n.magnitude rank := by
  obtain ⟨near, hnear, hnumber⟩ := (n.isNearest_number_iff n.number).2 rfl
  rw [hnumber, Number.ofRank_eq_finite_iff]
  constructor
  · rintro ⟨rfl, rfl⟩
    exact ⟨rfl, hnear⟩
  · rintro ⟨rfl, hrank⟩
    exact ⟨rfl, hnear.unique hrank⟩

/-- A numeral stands for an integer if it has a whole part alone, and no minus in front of zero. -/
theorem eq_of_toInt? {n : Numeral} {i : Int} (h : n.toInt? = some i) :
    n.fraction = none ∧ n.power = none ∧ n.negative = decide (i < 0) ∧
      natural n.whole = i.natAbs := by
  unfold toInt? at h
  split at h
  case isFalse => cases h
  case isTrue hplain =>
    simp only [Bool.and_eq_true, Option.isNone_iff_eq_none] at hplain
    refine ⟨hplain.1, hplain.2, ?_⟩
    dsimp only at h
    split at h
    case isTrue hnegative =>
      split at h
      case isTrue => cases h
      case isFalse hzero =>
        cases h
        have hsign : -(natural n.whole : Int) < 0 := by omega
        rw [hnegative, decide_eq_true hsign, Int.natAbs_neg, Int.natAbs_natCast]
        exact ⟨rfl, rfl⟩
    case isFalse hpositive =>
      cases h
      have hsign : ¬ (natural n.whole : Int) < 0 := by omega
      rw [Bool.eq_false_iff.2 hpositive, decide_eq_false hsign, Int.natAbs_natCast]
      exact ⟨rfl, rfl⟩

/-- The number of a numeral that is written as an integer is that of the integer. -/
theorem ofInt_of_toInt? {n : Numeral} {i : Int} (h : n.toInt? = some i) :
    Number.ofInt i = n.number := by
  obtain ⟨hfraction, hpower, hnegative, hwhole⟩ := eq_of_toInt? h
  obtain ⟨sign, whole, fraction, power⟩ := n
  cases hfraction
  cases hpower
  have hnumber : number ⟨sign, whole, none, none⟩ =
      Number.ofRatio (negative ⟨sign, whole, none, none⟩) (natural whole) 1 := by
    rw [number, Decimal.number, Decimal.rank_eq, Number.ofRank_min, Number.ofRatio]
    show Number.ofRank _ (Rank.nearest (natural (whole ++ []) * 1 * Rank.one) 1) = _
    rw [List.append_nil, Nat.mul_one]
  rw [hnumber, hnegative, hwhole, Number.ofInt]

/-! ## Shapes -/

/-- A numeral without a power of ten and with a digit behind its point, if it has one. -/
inductive Plain : Numeral → Prop where
  | whole {sign : Option Char} {digits : List Char} (h : digits ≠ []) :
    Plain ⟨sign, digits, none, none⟩
  | point {sign : Option Char} {front behind : List Char} (h : behind ≠ []) :
    Plain ⟨sign, front, some behind, none⟩

theorem isPlain_iff (n : Numeral) : n.isPlain = true ↔ n.Plain := by
  obtain ⟨sign, whole, fraction, power⟩ := n
  constructor
  · intro h
    cases power with
    | some power => cases h
    | none =>
      cases fraction with
      | none => exact .whole (by simpa [isPlain, hasDigits] using h)
      | some behind => exact .point (by simp_all [isPlain])
  · intro h
    cases h with
    | whole h => simp [isPlain, hasDigits, h]
    | point h => simp [isPlain, hasDigits, h]

/-- A plain numeral begins with a sign, a digit or a point, and nothing but digits and a point
follows. -/
theorem Plain.text {n : Numeral} (hplain : n.Plain) {text : List Char} (h : n.Spells text) :
    ∃ c rest, text = c :: rest ∧ (c.isDigit = true ∨ c = '+' ∨ c = '-' ∨ c = '.') ∧
      ∀ d ∈ rest, d.isDigit = true ∨ d = '.' := by
  obtain @⟨power, h, hpower⟩ := h
  have hbody : ∃ c rest, n.whole ++ (fractionChars n.fraction ++ power) = c :: rest ∧
      ∀ d ∈ c :: rest, d.isDigit = true ∨ d = '.' := by
    cases hplain with
    | whole hne =>
      cases hpower
      obtain ⟨c, rest, rfl⟩ := List.exists_cons_of_ne_nil hne
      exact ⟨c, rest, by simp [fractionChars], fun d hd => .inl (h.whole d hd)⟩
    | @point sign front behind hne =>
      cases hpower
      have hmem : ∀ d ∈ front ++ '.' :: behind, d.isDigit = true ∨ d = '.' := by
        intro d hd
        rcases List.mem_append.1 hd with hfront | hrest
        · exact .inl (h.whole d hfront)
        · rcases List.mem_cons.1 hrest with rfl | hbehind
          · exact .inr rfl
          · exact .inl (h.fraction behind rfl d hbehind)
      obtain ⟨c, rest, hcons⟩ := List.exists_cons_of_ne_nil
        (List.append_ne_nil_of_right_ne_nil front (List.cons_ne_nil '.' behind))
      exact ⟨c, rest, by simpa [fractionChars] using hcons, hcons ▸ hmem⟩
  obtain ⟨c, rest, heq, hmem⟩ := hbody
  rw [heq]
  cases hsign : n.sign with
  | none =>
    refine ⟨c, rest, rfl, ?_, fun d hd => hmem d (List.mem_cons_of_mem _ hd)⟩
    rcases hmem c List.mem_cons_self with hdigit | rfl
    · exact .inl hdigit
    · simp
  | some d =>
    refine ⟨d, c :: rest, rfl, ?_, hmem⟩
    rcases h.sign d hsign with rfl | rfl <;> simp

/-- A numeral of JSON: no plus sign in front, no needless zero, and no bare point. -/
structure OfJson (n : Numeral) : Prop where
  sign : n.sign ≠ some '+'
  whole : n.whole = ['0'] ∨ ∃ first rest, n.whole = first :: rest ∧ first ≠ '0'
  fraction : n.fraction ≠ some []

theorem isJson_iff (n : Numeral) : n.isJson = true ↔ n.OfJson := by
  have hfirst : n.whole ≠ [] ∧ n.whole.head? ≠ some '0' ↔
      ∃ first rest, n.whole = first :: rest ∧ first ≠ '0' := by
    cases n.whole <;> simp
  simp only [isJson, Bool.and_eq_true, Bool.or_eq_true, bne_iff_ne, beq_iff_eq, Bool.not_eq_true',
    List.isEmpty_eq_false_iff, hfirst]
  constructor
  · rintro ⟨⟨hsign, hwhole⟩, hfraction⟩
    exact ⟨hsign, hwhole, hfraction⟩
  · rintro ⟨hsign, hwhole, hfraction⟩
    exact ⟨⟨hsign, hwhole⟩, hfraction⟩

end Numeral

end LooseRecords
