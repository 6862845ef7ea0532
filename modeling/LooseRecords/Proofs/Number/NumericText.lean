import LooseRecords.Proofs.Number.RadixLiteral
import LooseRecords.Proofs.Value.Stored

/-!
# Texts that stand for a number

The grammar of the texts that stand for a number where a number is wanted, and that the reader takes
these texts and no others: `Number.read_numericText`. A text of the grammar never stands for `nan`,
however many digits it has and however great its power of ten is.
-/

namespace LooseRecords

/-! ## The grammar -/

/-- Digits with an optional point and optional digits behind it, or a point with digits behind it.
-/
inductive DecimalText : List Char → Prop where
  | whole {digits : List Char} (hne : digits ≠ []) (hdigits : AllDigits digits) :
    DecimalText digits
  | fraction {front behind : List Char} (hne : front ≠ []) (hfront : AllDigits front)
    (hbehind : AllDigits behind) : DecimalText (front ++ '.' :: behind)
  | point {digits : List Char} (hne : digits ≠ []) (hdigits : AllDigits digits) :
    DecimalText ('.' :: digits)

/-- The texts that stand for a number, without blanks around them. -/
inductive NumericText : List Char → Prop where
  | empty : NumericText []
  | infinity {sign : Option Char} (hsign : ∀ c ∈ sign, c = '+' ∨ c = '-') :
    NumericText (sign.toList ++ "Infinity".toList)
  | radix {mark : Char} {radix : Nat} {digits : List Char} (hmark : RadixMark mark radix)
    (hne : digits ≠ []) (hdigits : ∀ c ∈ digits, ∃ value, IsDigit radix c value) :
    NumericText ('0' :: mark :: digits)
  | decimal {sign : Option Char} {body : List Char} {power : Option (Bool × List Char)}
    {tail : List Char} (hsign : ∀ c ∈ sign, c = '+' ∨ c = '-') (hbody : DecimalText body)
    (hpower : Numeral.PowerSpelled power tail) : NumericText (sign.toList ++ (body ++ tail))

namespace Numeral

/-- A decimal with a sign and a power of ten is the text of a numeral with digits. -/
theorem exists_spells {sign : Option Char} (hsign : ∀ c ∈ sign, c = '+' ∨ c = '-')
    {body : List Char} (hbody : DecimalText body) {power : Option (Bool × List Char)}
    {tail : List Char} (hpower : PowerSpelled power tail) :
    ∃ n : Numeral, n.Spells (sign.toList ++ (body ++ tail)) ∧ n.hasDigits = true := by
  cases hbody with
  | whole hne hdigits =>
    refine ⟨⟨sign, body, none, power⟩, ?_, by simp [hasDigits, hne]⟩
    exact Spells.parts ⟨hsign, hdigits, by simp, hpower.wellFormed⟩ hpower
  | @fraction front behind hne hfront hbehind =>
    refine ⟨⟨sign, front, some behind, power⟩, ?_, by simp [hasDigits, hne]⟩
    rw [List.append_assoc]
    exact Spells.parts ⟨hsign, hfront, by simpa using hbehind, hpower.wellFormed⟩ hpower
  | @point digits hne hdigits =>
    refine ⟨⟨sign, [], some digits, power⟩, ?_, by simp [hasDigits, hne]⟩
    exact Spells.parts ⟨hsign, by simp [AllDigits], by simpa using hdigits, hpower.wellFormed⟩ hpower

/-- The texts of a numeral with digits are decimals with a sign and a power of ten. -/
theorem Spells.numericText {n : Numeral} {text : List Char} (h : n.Spells text)
    (hdigits : n.hasDigits = true) : NumericText text := by
  obtain ⟨sign, whole, fraction, power⟩ := n
  obtain @⟨tail, h, hpower⟩ := h
  have hbody : DecimalText (whole ++ fractionChars fraction) := by
    cases fraction with
    | none =>
      rw [fractionChars, List.append_nil]
      exact .whole (by simpa [hasDigits] using hdigits) h.whole
    | some behind =>
      have hbehind : AllDigits behind := h.fraction behind rfl
      cases whole with
      | nil => exact .point (by simpa [hasDigits] using hdigits) hbehind
      | cons c whole => exact .fraction (List.cons_ne_nil c whole) h.whole hbehind
  have htext := NumericText.decimal h.sign hbody hpower
  rwa [List.append_assoc] at htext

end Numeral

namespace Number

/-! ## Digits -/

theorem ofRank_ne_nan (negative : Bool) (rank : Nat) : ofRank negative rank ≠ .nan := by
  intro h
  rw [ofRank] at h
  split at h <;> cases h

/-- Digits of a radix are accumulated to a number. -/
theorem ofDigits_ne_nan {mark : Char} {radix : Nat} (hmark : RadixMark mark radix)
    {digits : List Char} (h : ∀ c ∈ digits, ∃ value, IsDigit radix c value) :
    ofDigits radix digits ≠ .nan := by
  obtain ⟨k, rfl, -, hk⟩ := hmark.exists_pow
  obtain ⟨values, hvalues⟩ : ∃ values, List.Forall₂ (IsDigit (2 ^ k)) digits values := by
    induction digits with
    | nil => exact ⟨[], .nil⟩
    | cons c digits ih =>
      obtain ⟨⟨value, hvalue⟩, hrest⟩ := List.forall_mem_cons.1 h
      obtain ⟨values, hvalues⟩ := ih hrest
      exact ⟨value :: values, .cons hvalue hvalues⟩
  rw [ofDigits_eq hk hvalues]
  exact ofRank_ne_nan _ _

/-- Nothing but digits is accumulated to a number. -/
theorem forall_digit?_of_ofDigits {radix : Nat} {digits : List Char}
    (h : ofDigits radix digits ≠ .nan) : ∀ c ∈ digits, ∃ value, digit? radix c = some value := by
  have hrun : ∀ {acc result : Number}, digits.foldlM (fun (acc : Number) c =>
      (digit? radix c).map fun d => (acc.mul (ofNat radix)).add (ofNat d)) acc = some result →
        ∀ c ∈ digits, ∃ value, digit? radix c = some value := by
    clear h
    induction digits with
    | nil => exact fun _ => List.forall_mem_nil _
    | cons c digits ih =>
      intro acc result hresult
      rw [List.foldlM_cons, Option.bind_eq_bind, Option.bind_eq_some_iff] at hresult
      obtain ⟨next, hnext, hrest⟩ := hresult
      obtain ⟨value, hvalue, -⟩ := Option.map_eq_some_iff.1 hnext
      exact List.forall_mem_cons.2 ⟨⟨value, hvalue⟩, ih hrest⟩
  rw [ofDigits] at h
  cases hresult : digits.foldlM (fun (acc : Number) c =>
      (digit? radix c).map fun d => (acc.mul (ofNat radix)).add (ofNat d)) zero with
  | none => exact absurd (congrArg (Option.getD · nan) hresult) h
  | some result => exact hrun hresult

/-! ## Texts -/

theorem readTrimmed_ne_nan {text : List Char} (h : NumericText text) :
    readTrimmed text ≠ .nan := by
  cases h with
  | empty => nofun
  | @infinity sign hsign =>
    cases sign with
    | none => nofun
    | some c => rcases hsign c rfl with rfl | rfl <;> nofun
  | radix hmark hne hdigits =>
    rw [readTrimmed_radixLiteral hmark hne]
    exact ofDigits_ne_nan hmark hdigits
  | decimal hsign hbody hpower =>
    obtain ⟨n, hspells, hdigits⟩ := Numeral.exists_spells hsign hbody hpower
    rw [readTrimmed_of_ofChars? (Numeral.ofChars?_of_spells hspells) hdigits]
    exact ofRank_ne_nan _ _

theorem numericText_of_readTrimmed {text : List Char} (h : readTrimmed text ≠ .nan) :
    NumericText text := by
  unfold readTrimmed at h
  split at h
  case isTrue hempty =>
    rw [hempty]
    exact .empty
  case isFalse =>
  split at h
  case isTrue hinfinity =>
    simp only [Bool.or_eq_true, decide_eq_true_eq] at hinfinity
    rcases hinfinity with rfl | rfl
    · exact @NumericText.infinity none (by simp)
    · exact @NumericText.infinity (some '+') (by simp)
  case isFalse =>
  split at h
  case isTrue hinfinity =>
    rw [hinfinity]
    exact @NumericText.infinity (some '-') (by simp)
  case isFalse =>
  split at h
  case h_1 radix digits hliteral =>
    obtain ⟨mark, hmark, rfl⟩ := radixLiteral?_eq_some_iff.1 hliteral
    obtain ⟨k, hk, -, hle⟩ := hmark.exists_pow
    have hradix : radix ≤ 16 := hk ▸ Nat.pow_le_pow_right (n := 2) (by decide) hle
    split at h
    case isTrue => exact absurd rfl h
    case isFalse hne =>
      refine .radix hmark hne fun c hc => ?_
      obtain ⟨value, hvalue⟩ := forall_digit?_of_ofDigits h c hc
      exact ⟨value, (digit?_eq_some_iff hradix).1 hvalue⟩
  case h_2 =>
  split at h
  case h_1 n hchars =>
    split at h
    case isTrue hdigits => exact (Numeral.ofChars?_eq_some_iff.1 hchars).numericText hdigits
    case isFalse => exact absurd rfl h
  case h_2 => exact absurd rfl h

/-- A text stands for a number exactly if it is one of the grammar with blanks around it. A text of
nothing but blanks stands for zero. -/
theorem read_numericText (text : List Char) :
    (read text = .nan ↔ ¬ NumericText (Text.trim text)) ∧
      (Text.trim text = [] → read text = zero) := by
  constructor
  · rw [read]
    constructor
    · exact fun hnan htext => readTrimmed_ne_nan htext hnan
    · intro hno
      by_contra hne
      exact hno (numericText_of_readTrimmed hne)
  · intro h
    rw [read, h]
    rfl

/-- Blanks stand for zero. Digits with anything but one point between them stand for no number, and
a decimal stands for one although its power of ten is out of reach. -/
theorem read_numericText_blank :
    Text.trim " \t\n".toList = [] ∧ read " \t\n".toList = zero ∧
      ¬ NumericText "1_000".toList ∧ read " 1_000".toList = .nan ∧
      NumericText "-.5E+999".toList ∧ read "-.5E+999 ".toList = .infinite true := by
  obtain ⟨hseparated, -⟩ := read_numericText " 1_000".toList
  obtain ⟨hdecimal, -⟩ := read_numericText "-.5E+999 ".toList
  have hnan : read " 1_000".toList = .nan := by decide +kernel
  have hinfinite : read "-.5E+999 ".toList = .infinite true := by decide +kernel
  refine ⟨by decide, (read_numericText _).2 (by decide), hseparated.1 hnan, hnan, ?_, hinfinite⟩
  by_contra hno
  exact Number.noConfusion ((hdecimal.2 hno).symm.trans hinfinite)

end Number

end LooseRecords
