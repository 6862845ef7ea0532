import LooseRecords.Proofs.Calendar.Instant
import LooseRecords.Proofs.Number.Positional
import LooseRecords.Proofs.Value.Classified
import LooseRecords.Proofs.Value.Restored

/-!
# Texts of stored values stored again

A value that is stored for a text has a display text, and arrays and objects have a JSON text.
Storing this text again gives the value back, with four exceptions: a number that is displayed with
an exponent or as an infinity stays a text, a negative zero becomes zero, a date whose year has not
four digits need not come back, and within an array or an object a number need not be read as it was
written. The result is `Value.ofWritten_redisplayed`.
-/

namespace LooseRecords

namespace Value

/-- What the display text of a value is stored as. -/
def redisplayed (value : Value) : Value := ofWritten (String.ofList value.display)

/-! ## Numerals -/

namespace Rule

theorem ofFirst_of_part {c : Char} (h : Numeral.Part c) : ofFirst c = .number := by
  rcases h with hdigit | hmem
  · exact ofFirst_of_isDigit hdigit
  · simp only [List.mem_cons, List.not_mem_nil, or_false] at hmem
    rcases hmem with rfl | rfl | rfl | rfl | rfl <;> rfl

/-- No text of a numeral is a date, which has a hyphen behind its first digits. -/
theorem not_date_of_spells {numeral : Numeral} {text : List Char} (h : numeral.Spells text)
    (t : Instant) : Instant.readIso? text ≠ some t := by
  intro hread
  obtain ⟨w, rfl, -⟩ := Instant.exists_of_readIso? hread
  have hne : w.year.chars ≠ [] := by
    rw [← List.length_pos_iff, w.year.length_chars]
    decide
  have hnone : Numeral.ofChars? w.text = none :=
    @Instant.ofChars?_hyphen none (by simp) _ w.year.allDigits hne _
  cases hnone.symm.trans (Numeral.ofChars?_of_spells h)

/-- The text of a numeral can only be taken for a number. -/
theorem Gives.of_spells {numeral : Numeral} {text : List Char} (h : numeral.Spells text)
    {rule : Rule} {value : Value} (hgives : rule.Gives text value) :
    numeral.Plain ∧ value = .number numeral.number := by
  have hfamily : rule.family = .number := by
    obtain ⟨c, rest, rfl, hfirst⟩ := hgives.ofFirst
    rw [← hfirst, ofFirst_of_part (h.part c List.mem_cons_self)]
  cases hgives with
  | null | boolean | array | object => cases hfamily
  | number hspells hplain hnearest =>
    have hsame := (Numeral.ofChars?_of_spells hspells).symm.trans (Numeral.ofChars?_of_spells h)
    cases hsame
    exact ⟨hplain, congrArg Value.number ((Numeral.isNearest_number_iff _ _).1 hnearest)⟩
  | date hread => exact absurd hread (not_date_of_spells h _)

end Rule

/-- The text of a numeral is stored as its number if it is plain, and as it is otherwise. -/
theorem ofWritten_of_spells {numeral : Numeral} {text : List Char} (h : numeral.Spells text) :
    ofWritten (String.ofList text) =
      if numeral.isPlain then .number numeral.number else .string (String.ofList text) := by
  have htrim : Text.trim (String.ofList text).toList = text := by
    rw [String.toList_ofList]
    exact Text.trim_of_no_blank fun c hc => Text.isBlank_of_numeral (h.part c hc)
  rw [ofWritten_eq_iff, htrim]
  split
  case isTrue hplain =>
    exact .inl ⟨.number, .number h ((numeral.isPlain_iff).1 hplain)
      ((Numeral.isNearest_number_iff _ _).2 rfl)⟩
  case isFalse hplain =>
    refine .inr ⟨rfl, fun rule other hgives => hplain ?_⟩
    exact (numeral.isPlain_iff).2 (hgives.of_spells h).1

/-- Numbers are given back where they are displayed without an exponent. -/
theorem redisplayed_number (n : Number) :
    redisplayed (.number n) =
      if n.IsPositional then .number n.unsignedZero else .string (String.ofList n.display) := by
  cases n with
  | nan => decide +kernel
  | infinite negative => cases negative <;> decide +kernel
  | finite negative rank =>
    have hspells := Numeral.spells_chars (Number.displayNumeral.spec negative rank).1
    rw [Number.displayNumeral.chars] at hspells
    have hplain : (Number.displayNumeral negative rank.val).isPlain = true ↔
        (Number.finite negative rank).IsPositional := by
      rw [Numeral.isPlain_iff, Number.plain_displayNumeral_iff, Number.isPositional_finite_iff]
    show ofWritten (String.ofList (Number.finite negative rank).display) = _
    rw [ofWritten_of_spells hspells, Number.displayNumeral.number, Number.unsignedZero_finite]
    simp only [hplain]

/-! ## Dates -/

theorem redisplayed_date {t : Instant} (h : Instant.IsPlainYear t.year) :
    redisplayed (.date t) = .date t := by
  show ofWritten (String.ofList t.iso) = .date t
  rw [Instant.ofWritten_iso, Instant.readIso?_iso h]
  rfl

/-! ## Arrays and objects -/

/-- The JSON text of an array or an object has no blanks around it. -/
theorem trim_jsonText {value : Value}
    (h : (∃ items, value = .array items) ∨ ∃ fields, value = .object fields) :
    Text.trim value.jsonText = value.jsonText := by
  rcases h with ⟨items, rfl⟩ | ⟨fields, rfl⟩
  · exact Text.trim_of_ends (by decide) (by decide) _
  · exact Text.trim_of_ends (by decide) (by decide) _

/-- An array or an object that was read from JSON is given back by its JSON text. -/
theorem ofWritten_jsonText {text : List Char} {j : Json} (h : Json.read? text = some j)
    (hkept : (ofJson j).json.NumbersKept)
    (hcontainer : (∃ items, ofJson j = .array items) ∨ ∃ fields, ofJson j = .object fields) :
    ofWritten (String.ofList (ofJson j).jsonText) = (ofJson j).unsignedZeros := by
  have htrim := trim_jsonText hcontainer
  have hvalue := ofJson_json_ofJson (Json.sound_of_read? h)
  have hunsigned : (∃ items, (ofJson j).unsignedZeros = .array items) ∨
      ∃ fields, (ofJson j).unsignedZeros = .object fields := by
    rcases hcontainer with ⟨items, hitems⟩ | ⟨fields, hfields⟩
    · rw [hitems]
      exact .inl ⟨_, rfl⟩
    · rw [hfields]
      exact .inr ⟨_, rfl⟩
  have hread : Rule.json.read? (ofJson j).jsonText = some (ofJson j).unsignedZeros :=
    container?_eq_some_iff.2 ⟨⟨_, read?_jsonText_ofJson h hkept, hvalue⟩, hunsigned⟩
  refine (ofWritten_eq_iff _ _).2 (.inl ⟨.json, ?_⟩)
  rw [String.toList_ofList, htrim]
  exact Rule.gives_of_read? htrim hread

/-- An array or an object that a text is stored as was read from JSON. -/
theorem exists_json_of_ofWritten {raw : String}
    (h : (∃ items, ofWritten raw = .array items) ∨ ∃ fields, ofWritten raw = .object fields) :
    ∃ text j, Json.read? text = some j ∧ ofWritten raw = ofJson j := by
  rcases suggests_or_string raw with hsuggests | hstring
  · generalize ofWritten raw = value at h hsuggests
    cases hsuggests with
    | array hread => exact ⟨_, _, hread, rfl⟩
    | object hread => exact ⟨_, _, hread, rfl⟩
    | null | true | false | number | date => simp at h
  · simp [hstring] at h

theorem ofWritten_jsonText_ofWritten {raw : String}
    (h : (∃ items, ofWritten raw = .array items) ∨ ∃ fields, ofWritten raw = .object fields)
    (hkept : (ofWritten raw).json.NumbersKept) :
    ofWritten (String.ofList (ofWritten raw).jsonText) = (ofWritten raw).unsignedZeros := by
  obtain ⟨text, j, hread, hvalue⟩ := exists_json_of_ofWritten h
  rw [hvalue] at h hkept ⊢
  exact ofWritten_jsonText hread hkept h

/-! ## Stored values -/

/-- What a text is stored as, stored again by its display text, or by its JSON text if it is an
array or an object with numbers that are read as they are written. -/
theorem ofWritten_redisplayed (raw : String) :
    match ofWritten raw with
    | .null => redisplayed .null = .null
    | .bool b => redisplayed (.bool b) = .bool b
    | .string s => redisplayed (.string s) = .string s
    | .number n => redisplayed (.number n) =
        if n.IsPositional then .number n.unsignedZero else .string (String.ofList n.display)
    | .date t => Instant.IsPlainYear t.year → redisplayed (.date t) = .date t
    | .array items => (json (.array items)).NumbersKept →
        ofWritten (String.ofList (jsonText (.array items))) = .array (itemsUnsigned items)
    | .object fields => (json (.object fields)).NumbersKept →
        ofWritten (String.ofList (jsonText (.object fields))) =
          .object (fieldsUnsigned fields) := by
  have hcontainer := @ofWritten_jsonText_ofWritten raw
  cases hvalue : ofWritten raw with
  | null => decide
  | bool b => cases b <;> decide
  | string s =>
    obtain rfl := eq_of_ofWritten hvalue
    show ofWritten (String.ofList s.toList) = .string s
    rw [String.ofList_toList, hvalue]
  | number n => exact redisplayed_number n
  | date t => exact redisplayed_date
  | array items =>
    rw [hvalue] at hcontainer
    exact hcontainer (.inl ⟨items, rfl⟩)
  | object fields =>
    rw [hvalue] at hcontainer
    exact hcontainer (.inr ⟨fields, rfl⟩)

/-- The least number that is displayed without an exponent, a number with a sign that is displayed
with one, a leap day, and an array that holds a negative zero. -/
theorem ofWritten_redisplayed_leap :
    let least : Value := .number (Decimal.number false ⟨1, -6⟩)
    let great : Value := .number (Decimal.number true ⟨1, 21⟩)
    let leap : Instant := ⟨1709164800000⟩
    let tenth : Number := .ofRatio false 1 10
    ofWritten " .00000100" = least ∧ redisplayed least = least ∧
      ofWritten "-1000000000000000000000" = great ∧ redisplayed great = .string "-1e+21" ∧
      ofWritten "2024-02-29" = .date leap ∧ Instant.IsPlainYear leap.year ∧
      redisplayed (.date leap) = .date leap ∧
      ofWritten "[-0.0, [1e-1]]" = .array [.number (.ofRank true 0), .array [.number tenth]] ∧
      (json (.array [.number (.ofRank true 0), .array [.number tenth]])).NumbersKept ∧
      ofWritten "[0,[0.1]]" = .array [.number .zero, .array [.number tenth]] := by
  intro least great leap tenth
  have hleast : ofWritten " .00000100" = least := by decide +kernel
  have hgreat : ofWritten "-1000000000000000000000" = great := by decide +kernel
  have hleap : ofWritten "2024-02-29" = .date leap := by decide +kernel
  have hitems : ofWritten "[-0.0, [1e-1]]" =
      .array [.number (.ofRank true 0), .array [.number tenth]] := by decide +kernel
  have hkept : (json (.array [.number (.ofRank true 0), .array [.number tenth]])).NumbersKept := by
    decide +kernel
  have hyear : Instant.IsPlainYear leap.year := by
    unfold Instant.IsPlainYear
    decide +kernel
  have hleastAgain : redisplayed least = least := by
    have hstored := ofWritten_redisplayed " .00000100"
    rw [hleast] at hstored
    refine hstored.trans ((if_pos ?_).trans ?_) <;> decide +kernel
  have hgreatAgain : redisplayed great = .string "-1e+21" := by
    have hstored := ofWritten_redisplayed "-1000000000000000000000"
    rw [hgreat] at hstored
    refine hstored.trans ((if_neg ?_).trans ?_) <;> decide +kernel
  have hleapAgain : redisplayed (.date leap) = .date leap := by
    have hstored := ofWritten_redisplayed "2024-02-29"
    rw [hleap] at hstored
    exact hstored hyear
  have hitemsAgain : ofWritten "[0,[0.1]]" = .array [.number .zero, .array [.number tenth]] := by
    -- The text becomes a variable, lest the elaborator reads it.
    obtain ⟨raw, hraw⟩ : ∃ raw, raw = "[-0.0, [1e-1]]" := ⟨_, rfl⟩
    have hstored := ofWritten_redisplayed raw
    rw [hraw, hitems] at hstored
    have htext : String.ofList
        (jsonText (.array [.number (.ofRank true 0), .array [.number tenth]])) = "[0,[0.1]]" := by
      decide +kernel
    have hzeros : itemsUnsigned [.number (.ofRank true 0), .array [.number tenth]] =
        [.number .zero, .array [.number tenth]] := by decide +kernel
    dsimp only at hstored
    rw [htext, hzeros] at hstored
    exact hstored hkept
  exact ⟨hleast, hleastAgain, hgreat, hgreatAgain, hleap, hyear, hleapAgain, hitems, hkept,
    hitemsAgain⟩

end Value

end LooseRecords
