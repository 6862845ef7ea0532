import LooseRecords.Value.Display
import LooseRecords.Value.Written

/-!
# Numbers stored typed or as text

A text that is stored as a number stands for that number: `Value.read_of_ofWritten`. So wherever a
number is wanted it makes no difference whether a numeral is stored with its type or as text.
-/

namespace LooseRecords

namespace Number

/-- A text that is a numeral with digits is none of the words and literals that are read first. -/
theorem readTrimmed_of_ofChars? {text : List Char} {n : Numeral}
    (h : Numeral.ofChars? text = some n) (hdigits : n.hasDigits = true) :
    readTrimmed text = n.number := by
  have hne : ∀ other, Numeral.ofChars? other = none → text ≠ other := by
    rintro _ hnone rfl
    cases hnone.symm.trans h
  have hempty : text ≠ [] := by
    rintro rfl
    cases h
    cases hdigits
  have hradix : radixLiteral? text = none := by
    unfold radixLiteral?
    split
    case h_1 c digits =>
      have hletter : ∀ letter, Numeral.ofChars? ('0' :: letter :: digits) = none → c ≠ letter :=
        fun letter hnone heq => hne _ hnone (by rw [heq])
      rw [if_neg (by simp [hletter 'x' rfl, hletter 'X' rfl]),
        if_neg (by simp [hletter 'o' rfl, hletter 'O' rfl]),
        if_neg (by simp [hletter 'b' rfl, hletter 'B' rfl])]
    case h_2 => rfl
  have hinfinity : text ≠ "Infinity".toList := hne _ (by decide)
  have hplus : text ≠ "+Infinity".toList := hne _ (by decide)
  have hminus : text ≠ "-Infinity".toList := hne _ (by decide)
  rw [readTrimmed]
  simp only [hempty, hinfinity, hplus, hminus, decide_false, Bool.or_false, Bool.false_eq_true,
    if_false, hradix, h, hdigits, if_true]

end Number

namespace Value

/-! ## What a text may be stored as -/

/-- The text suggests a type, and the value is what it stands for under that type. -/
inductive Suggests (text : List Char) : Value → Prop where
  | null (h : text = "null".toList) : Suggests text .null
  | true (h : text = "true".toList) : Suggests text (.bool true)
  | false (h : text = "false".toList) : Suggests text (.bool false)
  | number {n : Number} (h : plainNumber? text = some n) : Suggests text (.number n)
  | date {t : Instant} (h : Instant.readIso? text = some t) : Suggests text (.date t)
  | array {items : List Json} (h : Json.read? text = some (.array items)) :
    Suggests text (.array (ofItems items))
  | object {members : List (String × Json)} (h : Json.read? text = some (.object members)) :
    Suggests text (.object (ofMembers members))

theorem suggests_of_container? {text : List Char} {value : Value}
    (h : container? text = some value) : Suggests text value := by
  unfold container? at h
  split at h
  case h_1 items hread =>
    cases h
    exact .array hread
  case h_2 members hread =>
    cases h
    exact .object hread
  case h_3 => cases h

theorem suggests_of_typed? {text : List Char} {value : Value} (h : typed? text = some value) :
    Suggests text value := by
  unfold typed? at h
  split at h
  case isTrue hnull =>
    cases h
    exact .null hnull
  case isFalse =>
  split at h
  case isTrue htrue =>
    cases h
    exact .true htrue
  case isFalse =>
  split at h
  case isTrue hfalse =>
    cases h
    exact .false hfalse
  case isFalse =>
  split at h
  case h_1 n hplain =>
    cases h
    exact .number hplain
  case h_2 =>
  split at h
  case h_1 t hiso =>
    cases h
    exact .date hiso
  case h_2 => exact suggests_of_container? h

/-- A text is stored as what it stands for under the type that it suggests, or as it is. -/
theorem suggests_or_string (raw : String) :
    Suggests (Text.trim raw.toList) (ofWritten raw) ∨ ofWritten raw = .string raw := by
  rw [ofWritten]
  cases h : typed? (Text.trim raw.toList) with
  | none => exact .inr rfl
  | some value => exact .inl (suggests_of_typed? h)

/-! ## Numbers -/

/-- A text that is stored as a number stands for that number. -/
theorem read_of_ofWritten {raw : String} {n : Number} (h : ofWritten raw = .number n) :
    Number.read raw.toList = n := by
  have hstored := suggests_or_string raw
  rw [h] at hstored
  rcases hstored with hsuggests | hstring
  · cases hsuggests with
    | number hplain =>
      obtain ⟨numeral, hfilter, rfl⟩ := Option.map_eq_some_iff.1 hplain
      obtain ⟨hchars, hplain⟩ := Option.filter_eq_some_iff.1 hfilter
      have hdigits : numeral.hasDigits = true := by
        simp only [Numeral.isPlain, Bool.and_eq_true] at hplain
        exact hplain.1.2
      exact Number.readTrimmed_of_ofChars? hchars hdigits
  · cases hstring

/-- A text that is stored as a text is stored as it is. -/
theorem eq_of_ofWritten {raw s : String} (h : ofWritten raw = .string s) : s = raw := by
  have hstored := suggests_or_string raw
  rw [h] at hstored
  rcases hstored with hsuggests | hstring
  · cases hsuggests
  · exact Value.string.inj hstring

/-- The value is a number or a text. -/
def isNumberOrText : Value → Bool
  | .number _ | .string _ => true
  | _ => false

/-- A text that is stored as a number or as a text stands for the same number either way. -/
theorem asNumber_ofWritten {raw : String} (h : (ofWritten raw).isNumberOrText = true) :
    asNumber (some (ofWritten raw)) = asNumber (some (.string raw)) := by
  cases hstored : ofWritten raw with
  | number n => exact (read_of_ofWritten hstored).symm
  | string s => rw [eq_of_ofWritten hstored]
  | null | bool | date | array | object =>
    rw [hstored] at h
    cases h

end Value

end LooseRecords
