import LooseRecords.Proofs.Calendar.IsoText
import LooseRecords.Proofs.Json.Numbers
import LooseRecords.Proofs.Json.Recognized
import LooseRecords.Value.Written

/-!
# The types that texts suggest

A text without blanks around it suggests a type by one of five rules. `Value.Rule.Gives` says what
each rule asks of a text and which value it gives, and `Value.ofWritten_classified` that a text is
stored as the value of the rule that applies, or as it is if there is none. No two rules apply to
one text, so the order in which they are tried does not matter. A number that is a text by itself is
the nearest one; within an array or an object it is the one that JSON computes, if there is one.
-/

namespace LooseRecords

namespace Value

/-! ## Rules -/

/-- The rules by which a text may suggest a type. -/
inductive Rule where
  | null
  | boolean
  | number
  | date
  | json
  deriving DecidableEq

namespace Rule

/-- The rules in the order in which they are tried. -/
def all : List Rule := [.null, .boolean, .number, .date, .json]

/-- The value that a rule gives to a text, if it applies. -/
def read? : Rule → List Char → Option Value
  | .null, text => if text = "null".toList then some .null else none
  | .boolean, text =>
    if text = "true".toList then some (.bool true)
    else if text = "false".toList then some (.bool false)
    else none
  | .number, text => (plainNumber? text).map .number
  | .date, text => (Instant.readIso? text).map .date
  | .json, text => container? text

/-- What a rule asks of a text, and the value that it gives to it. -/
inductive Gives : Rule → List Char → Value → Prop where
  | null : Gives .null "null".toList .null
  | boolean (b : Bool) : Gives .boolean (if b then "true".toList else "false".toList) (.bool b)
  /-- A sign may stand in front of digits, of digits with a point between them, or of a point with
  digits behind it. -/
  | number {numeral : Numeral} {text : List Char} {n : Number} (h : numeral.Spells text)
    (hplain : numeral.Plain) (hnearest : n.IsNearest numeral.negative numeral.magnitude) :
    Gives .number text (.number n)
  | date {text : List Char} {t : Instant} (h : Instant.readIso? text = some t) :
    Gives .date text (.date t)
  | array {text : List Char} {items : List Value} (h : Json.Denotes 127 text (.array items)) :
    Gives .json text (.array items)
  | object {text : List Char} {fields : List (String × Value)}
    (h : Json.Denotes 127 text (.object fields)) : Gives .json text (.object fields)

end Rule

/-- The value of a text if the rules are tried in some order. -/
def ofWrittenBy (order : List Rule) (raw : String) : Value :=
  (order.findSome? (·.read? (Text.trim raw.toList))).getD (.string raw)

theorem typed?_eq (text : List Char) : typed? text = Rule.all.findSome? (·.read? text) := by
  simp only [typed?, Rule.all, List.findSome?, Rule.read?]
  by_cases hnull : text = "null".toList
  · simp [hnull]
  by_cases htrue : text = "true".toList
  · simp [htrue]
  by_cases hfalse : text = "false".toList
  · simp [hfalse]
  simp only [hnull, htrue, hfalse, if_false]
  cases plainNumber? text with
  | some n => rfl
  | none =>
    cases Instant.readIso? text with
    | some t => rfl
    | none =>
      cases container? text with
      | some value => rfl
      | none => rfl

theorem ofWritten_eq (raw : String) : ofWritten raw = ofWrittenBy Rule.all raw := by
  rw [ofWritten, typed?_eq, ofWrittenBy]

/-! ## What the rules give -/

theorem plainNumber?_eq_some_iff {text : List Char} {n : Number} :
    plainNumber? text = some n ↔ ∃ numeral : Numeral, numeral.Spells text ∧ numeral.Plain ∧
      n.IsNearest numeral.negative numeral.magnitude := by
  simp only [plainNumber?, Option.map_eq_some_iff, Option.filter_eq_some_iff,
    Numeral.ofChars?_eq_some_iff, Numeral.isPlain_iff, Numeral.isNearest_number_iff, and_assoc,
    @eq_comm _ _ n]

/-- A text is read as a container exactly if it is read as a JSON value that is one. -/
theorem container?_eq_some_iff {text : List Char} {value : Value} :
    container? text = some value ↔
      (∃ j, Json.read? text = some j ∧ ofJson j = value) ∧
        ((∃ items, value = .array items) ∨ ∃ fields, value = .object fields) := by
  unfold container?
  constructor
  · intro h
    split at h
    case h_1 items hread =>
      cases h
      exact ⟨⟨_, hread, rfl⟩, .inl ⟨_, rfl⟩⟩
    case h_2 members hread =>
      cases h
      exact ⟨⟨_, hread, rfl⟩, .inr ⟨_, rfl⟩⟩
    case h_3 => cases h
  · rintro ⟨⟨j, hread, rfl⟩, hcontainer⟩
    rw [hread]
    cases j with
    | array items => rfl
    | object members => rfl
    | _ => simp [ofJson] at hcontainer

namespace Rule

variable {rule other : Rule} {text : List Char} {value a b : Value}

theorem Gives.read? (h : rule.Gives text value) : rule.read? text = some value := by
  have hjson : ∀ {value : Value}, Json.Denotes 127 text value →
      ∃ j, Json.read? text = some j ∧ ofJson j = value := fun hdenotes =>
    Json.read?_iff.2 hdenotes.item
  cases h with
  | null => rfl
  | boolean b => cases b <;> rfl
  | number h hplain hnearest =>
    rw [Rule.read?, plainNumber?_eq_some_iff.2 ⟨_, h, hplain, hnearest⟩, Option.map_some]
  | date h => rw [Rule.read?, h, Option.map_some]
  | array h => exact container?_eq_some_iff.2 ⟨hjson h, .inl ⟨_, rfl⟩⟩
  | object h => exact container?_eq_some_iff.2 ⟨hjson h, .inr ⟨_, rfl⟩⟩

theorem gives_of_read? (htrim : Text.trim text = text) (h : rule.read? text = some value) :
    rule.Gives text value := by
  cases rule with
  | null =>
    obtain ⟨rfl, rfl⟩ : text = "null".toList ∧ Value.null = value := by
      simpa [Rule.read?] using h
    exact .null
  | boolean =>
    simp only [Rule.read?] at h
    split at h
    case isTrue htrue =>
      cases h
      exact htrue ▸ .boolean true
    case isFalse =>
      split at h
      case isTrue hfalse =>
        cases h
        exact hfalse ▸ .boolean false
      case isFalse => cases h
  | number =>
    obtain ⟨n, hn, rfl⟩ := Option.map_eq_some_iff.1 h
    obtain ⟨numeral, hspells, hplain, hnearest⟩ := plainNumber?_eq_some_iff.1 hn
    exact .number hspells hplain hnearest
  | date =>
    obtain ⟨t, ht, rfl⟩ := Option.map_eq_some_iff.1 h
    exact .date ht
  | json =>
    obtain ⟨hread, ⟨items, rfl⟩ | ⟨fields, rfl⟩⟩ := container?_eq_some_iff.1 h
    · exact .array (Json.denotes_of_trim htrim (Json.read?_iff.1 hread))
    · exact .object (Json.denotes_of_trim htrim (Json.read?_iff.1 hread))

/-! ## No two rules apply -/

/-- Numbers and dates begin alike. -/
def family : Rule → Rule
  | .date => .number
  | rule => rule

theorem eq_or_of_family_eq (h : rule.family = other.family) :
    rule = other ∨ rule = .number ∧ other = .date ∨ rule = .date ∧ other = .number := by
  cases rule <;> cases other <;> simp [family] at h ⊢

/-- The family of rules that may apply to texts with this first character. -/
def ofFirst (c : Char) : Rule :=
  if c = 'n' then .null
  else if c = 't' || c = 'f' then .boolean
  else if c = '[' || c = '\x7b' then .json
  else .number

theorem ofFirst_of_isDigit {c : Char} (h : c.isDigit = true) : ofFirst c = .number := by
  have hne : ∀ letter : Char, letter.isDigit = false → c ≠ letter := by
    rintro letter hletter rfl
    cases hletter.symm.trans h
  simp [ofFirst, hne]

theorem iso_text {t : Instant} (h : Instant.readIso? text = some t) :
    ∃ c rest, text = c :: rest ∧ c.isDigit = true ∧ '-' ∈ rest := by
  obtain ⟨w, rfl, -⟩ := Instant.exists_of_readIso? h
  obtain ⟨⟨chars, hlength, hdigits⟩, month, day, clock⟩ := w
  cases chars with
  | nil => cases hlength
  | cons c chars =>
    exact ⟨c, _, rfl, hdigits c List.mem_cons_self, by simp⟩

/-- The first character of a text decides on the family of the rule. -/
theorem Gives.ofFirst (h : rule.Gives text value) :
    ∃ c rest, text = c :: rest ∧ Rule.ofFirst c = rule.family := by
  cases h with
  | null => exact ⟨'n', _, rfl, rfl⟩
  | boolean b =>
    cases b with
    | true => exact ⟨'t', _, rfl, rfl⟩
    | false => exact ⟨'f', _, rfl, rfl⟩
  | number h hplain =>
    obtain ⟨c, rest, rfl, hc, -⟩ := hplain.text h
    refine ⟨c, rest, rfl, ?_⟩
    rcases hc with hdigit | rfl | rfl | rfl
    · exact ofFirst_of_isDigit hdigit
    · rfl
    · rfl
    · rfl
  | date h =>
    obtain ⟨c, rest, rfl, hc, -⟩ := iso_text h
    exact ⟨c, rest, rfl, ofFirst_of_isDigit hc⟩
  | array h =>
    cases h <;> exact ⟨'[', _, rfl, rfl⟩
  | object h =>
    cases h <;> exact ⟨'\x7b', _, rfl, rfl⟩

/-- Behind its first character a date has a hyphen and a number has none. -/
theorem not_number_and_date (hnumber : Gives .number text a) (hdate : Gives .date text b) :
    False := by
  cases hnumber with
  | number h hplain =>
    cases hdate with
    | date hdate =>
      obtain ⟨c, rest, rfl, -, hrest⟩ := hplain.text h
      obtain ⟨_, _, heq, -, hhyphen⟩ := iso_text hdate
      cases heq
      have hno := hrest '-' hhyphen
      simp at hno

/-- At most one rule applies to a text. -/
theorem Gives.unique (h : rule.Gives text a) (hother : other.Gives text b) :
    rule = other ∧ a = b := by
  have hrule : rule = other := by
    obtain ⟨c, rest, rfl, hfamily⟩ := h.ofFirst
    obtain ⟨_, _, heq, hsame⟩ := hother.ofFirst
    cases heq
    rcases eq_or_of_family_eq (hfamily.symm.trans hsame) with rfl | ⟨rfl, rfl⟩ | ⟨rfl, rfl⟩
    · rfl
    · exact (not_number_and_date h hother).elim
    · exact (not_number_and_date hother h).elim
  subst hrule
  exact ⟨rfl, Option.some.inj (h.read?.symm.trans hother.read?)⟩

theorem mem_of_perm {order : List Rule} (h : order.Perm all) (rule : Rule) : rule ∈ order := by
  rw [h.mem_iff]
  cases rule <;> decide

/-- Whatever the order, rules that are all tried give what one of them gives. -/
theorem findSome?_read?_eq_some_iff {order : List Rule} (h : order.Perm all)
    (htrim : Text.trim text = text) :
    order.findSome? (·.read? text) = some value ↔ ∃ rule : Rule, rule.Gives text value := by
  constructor
  · intro hfirst
    obtain ⟨rule, -, hrule⟩ := List.exists_of_findSome?_eq_some hfirst
    exact ⟨rule, gives_of_read? htrim hrule⟩
  · rintro ⟨rule, hrule⟩
    have hsome : (order.findSome? (·.read? text)).isSome = true :=
      List.findSome?_isSome_iff.2 ⟨rule, mem_of_perm h rule, by rw [hrule.read?]; rfl⟩
    obtain ⟨found, hfound⟩ := Option.isSome_iff_exists.1 hsome
    obtain ⟨first, -, hfirst⟩ := List.exists_of_findSome?_eq_some hfound
    rw [hfound, (hrule.unique (gives_of_read? htrim hfirst)).2]

end Rule

/-! ## Stored values -/

theorem ofWritten_eq_iff (raw : String) (value : Value) :
    ofWritten raw = value ↔
      (∃ rule, Rule.Gives rule (Text.trim raw.toList) value) ∨
        value = .string raw ∧ ∀ rule other, ¬ Rule.Gives rule (Text.trim raw.toList) other := by
  have hgives : ∀ value, Rule.all.findSome? (·.read? (Text.trim raw.toList)) = some value ↔
      ∃ rule : Rule, rule.Gives (Text.trim raw.toList) value := fun _ =>
    Rule.findSome?_read?_eq_some_iff .rfl (Text.trim_trim raw.toList)
  rw [ofWritten_eq, ofWrittenBy]
  cases hfound : Rule.all.findSome? (·.read? (Text.trim raw.toList)) with
  | some found =>
    obtain ⟨rule, hrule⟩ := (hgives found).1 hfound
    rw [Option.getD_some, ← Option.some.injEq, ← hfound, hgives, or_iff_left]
    exact fun hnone => hnone.2 rule found hrule
  | none =>
    have hnone : ∀ rule other, ¬ Rule.Gives rule (Text.trim raw.toList) other := by
      intro rule other hrule
      cases hfound.symm.trans ((hgives other).2 ⟨rule, hrule⟩)
    simp only [Option.getD_none, hnone, exists_false, false_or, not_false_iff, implies_true,
      and_true, eq_comm]

theorem ofWrittenBy_eq {order : List Rule} (h : order.Perm Rule.all) (raw : String) :
    ofWrittenBy order raw = ofWritten raw := by
  have hsame : order.findSome? (·.read? (Text.trim raw.toList)) =
      Rule.all.findSome? (·.read? (Text.trim raw.toList)) := by
    ext value
    rw [Rule.findSome?_read?_eq_some_iff h (Text.trim_trim raw.toList),
      Rule.findSome?_read?_eq_some_iff .rfl (Text.trim_trim raw.toList)]
  rw [ofWritten_eq, ofWrittenBy, ofWrittenBy, hsame]

theorem ofWritten_blanks {raw : String} {front behind : List Char} (hfront : Text.Blank front)
    (hbehind : Text.Blank behind) (h : ∀ s, ofWritten raw ≠ .string s) :
    ofWritten (String.ofList (front ++ (raw.toList ++ behind))) = ofWritten raw := by
  have htrim : Text.trim (front ++ (raw.toList ++ behind)) = Text.trim raw.toList := by
    rw [Text.trim_blanks_append hfront, Text.trim_append_blanks _ hbehind]
  simp only [ofWritten, String.toList_ofList, htrim] at h ⊢
  cases hread : typed? (Text.trim raw.toList) with
  | some value => rfl
  | none => exact absurd (by rw [hread]; rfl) (h raw)

end Value

end LooseRecords
