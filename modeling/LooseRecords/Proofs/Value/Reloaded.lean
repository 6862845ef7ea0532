import LooseRecords.Proofs.Json.Text
import LooseRecords.Record

/-!
# Values saved and loaded

What a value is after it was saved as JSON and loaded again: `Value.reloaded`. JSON has no dates, no
numbers that are not finite, and for a whole number no negative zero; all else stays as it is. This
takes for granted that every double is read as the one that was written. Without that a record is
`Record.reread` after it was loaded.
-/

namespace LooseRecords

namespace Number

/-- What a number is after it was saved and loaded, if it is read as it was written. -/
def reloaded : Number → Value
  | .finite negative rank => .number (.finite (negative && rank.val != 0) rank)
  | _ => .null

/-- A whole number is the number nearest to its integer, up to the sign of zero. -/
theorem ofInt_of_toInt? {negative : Bool} {rank : Fin Rank.count} {i : Int}
    (h : (finite negative rank).toInt? = some i) :
    ofInt i = .finite (negative && rank.val != 0) rank := by
  simp only [toInt?] at h
  split at h
  case isFalse => cases h
  case isTrue hwhole =>
    obtain ⟨whole, hdef⟩ : ∃ whole, whole = Rank.units rank.val / Rank.one := ⟨_, rfl⟩
    have hunits : whole * Rank.one = Rank.units rank.val := by
      rw [hdef]
      exact Nat.div_mul_cancel (Nat.dvd_of_mod_eq_zero hwhole)
    have hzero : whole = 0 ↔ rank.val = 0 := by
      rw [← Rank.units_eq_zero_iff rank.val, ← hunits, Nat.mul_eq_zero]
      exact ⟨.inl, fun h => h.resolve_right (Nat.ne_of_gt Rank.one_pos)⟩
    rw [← hdef] at h
    have hrank : Rank.nearest (whole * Rank.one) 1 = rank.val := by
      rw [hunits]
      simpa using Rank.nearest_units Nat.one_pos rank.val
    have habs : i.natAbs = whole := by cases negative <;> cases h <;> simp
    -- The integer zero has no sign, whatever the sign of the number.
    have hsign : decide (i < 0) = (negative && rank.val != 0) := by
      cases negative
      · cases h
        simp
      · cases h
        by_cases hr : rank.val = 0
        · simp [hr, hzero.2 hr]
        · have hpos : 0 < whole := Nat.pos_of_ne_zero fun h0 => hr (hzero.1 h0)
          simp [hr, hpos]
    rw [ofInt, ofRatio, habs, hrank, hsign, ofRank, dif_pos rank.isLt]

/-- The JSON form of a number holds what the number is after it was loaded. -/
theorem ofJson_json (n : Number) : Value.ofJson n.json = n.reloaded := by
  cases n with
  | nan => rfl
  | infinite => rfl
  | finite negative rank =>
    rw [json]
    cases h : (finite negative rank).toInt? with
    | none =>
      have hne : rank.val ≠ 0 := by
        intro hzero
        simp [toInt?, (Rank.units_eq_zero_iff _).2 hzero] at h
      simp [Value.ofJson, reloaded, hne]
    | some i =>
      show Value.ofJson (if i.natAbs < 2 * Rank.binade then _ else _) = _
      split
      case isTrue => rw [Value.ofJson, ofInt_of_toInt? h, reloaded]
      case isFalse hlarge =>
        have hne : rank.val ≠ 0 := by
          intro hzero
          simp only [toInt?, (Rank.units_eq_zero_iff _).2 hzero] at h
          cases negative <;> cases h <;> exact hlarge (by decide)
        simp [Value.ofJson, reloaded, hne]

/-- What a number is after it was loaded has the JSON form of the number. -/
theorem json_reloaded (n : Number) : n.reloaded.json = n.json := by
  cases n with
  | nan => rfl
  | infinite => rfl
  | finite negative rank =>
    show (finite (negative && rank.val != 0) rank).json = (finite negative rank).json
    by_cases hzero : rank.val = 0
    · -- Either zero is written as the integer.
      have hzeros : ∀ sign, (finite sign rank).json = .integer 0 := by
        intro sign
        have hint : (finite sign rank).toInt? = some 0 := by
          cases sign <;> simp [toInt?, (Rank.units_eq_zero_iff _).2 hzero]
        simp only [json, hint]
        rfl
      rw [hzeros, hzeros]
    · have hsign : (negative && rank.val != 0) = negative := by simp [hzero]
      rw [hsign]

/-- A text can stand for the JSON form of a number. -/
theorem sound_json (n : Number) : n.json.Sound := by
  cases n with
  | nan => trivial
  | infinite => trivial
  | finite negative rank =>
    rw [json]
    cases h : (finite negative rank).toInt? with
    | none => exact ⟨negative, rank, rfl⟩
    | some i =>
      show Json.Sound (if i.natAbs < 2 * Rank.binade then _ else _)
      split
      case isTrue hsmall =>
        have hlow : Int64.minValue.toInt = -9223372036854775808 := rfl
        have hhigh : UInt64.size = 18446744073709551616 := rfl
        simp only [Rank.binade] at hsmall
        rw [Json.Sound, hlow, hhigh]
        omega
      case isFalse => exact ⟨negative, rank, rfl⟩

end Number

namespace Value

mutual

/-- What a value is after it was saved and loaded, if its numbers are kept. -/
def reloaded : Value → Value
  | .null => .null
  | .bool b => .bool b
  | .number n => n.reloaded
  | .string s => .string s
  | .date t => .string (String.ofList t.iso)
  | .array items => .array (itemsReloaded items)
  | .object fields => .object (fieldsReloaded fields)

/-- What items are after they were saved and loaded. -/
def itemsReloaded : List Value → List Value
  | [] => []
  | item :: items => reloaded item :: itemsReloaded items

/-- What fields are after they were saved and loaded. -/
def fieldsReloaded : List (String × Value) → List (String × Value)
  | [] => []
  | (name, value) :: fields => (name, reloaded value) :: fieldsReloaded fields

end

mutual

/-- The JSON form of a value holds what the value is after it was loaded. -/
theorem ofJson_json (v : Value) : ofJson v.json = v.reloaded := by
  match v with
  | .null | .bool b | .string s | .date t => rfl
  | .number n => exact n.ofJson_json
  | .array items => rw [json, ofJson, ofItems_itemsJson items, reloaded]
  | .object fields => rw [json, ofJson, ofMembers_fieldsJson fields, reloaded]

theorem ofItems_itemsJson (items : List Value) :
    ofItems (itemsJson items) = itemsReloaded items := by
  match items with
  | [] => rfl
  | item :: items =>
    rw [itemsJson, ofItems, ofJson_json item, ofItems_itemsJson items, itemsReloaded]

theorem ofMembers_fieldsJson (fields : List (String × Value)) :
    ofMembers (fieldsJson fields) = fieldsReloaded fields := by
  match fields with
  | [] => rfl
  | (name, value) :: fields =>
    rw [fieldsJson, ofMembers, ofJson_json value, ofMembers_fieldsJson fields, fieldsReloaded]

end

mutual

/-- What a value is after it was loaded has the JSON form of the value. -/
theorem json_reloaded (v : Value) : v.reloaded.json = v.json := by
  match v with
  | .null | .bool b | .string s | .date t => rfl
  | .number n => exact n.json_reloaded
  | .array items => rw [reloaded, json, json, itemsJson_itemsReloaded items]
  | .object fields => rw [reloaded, json, json, fieldsJson_fieldsReloaded fields]

theorem itemsJson_itemsReloaded (items : List Value) :
    itemsJson (itemsReloaded items) = itemsJson items := by
  match items with
  | [] => rfl
  | item :: items =>
    rw [itemsReloaded, itemsJson, itemsJson, json_reloaded item, itemsJson_itemsReloaded items]

theorem fieldsJson_fieldsReloaded (fields : List (String × Value)) :
    fieldsJson (fieldsReloaded fields) = fieldsJson fields := by
  match fields with
  | [] => rfl
  | (name, value) :: fields =>
    rw [fieldsReloaded, fieldsJson, fieldsJson, json_reloaded value,
      fieldsJson_fieldsReloaded fields]

end

/-! ## Distinct names -/

mutual

/-- The names of every object within the value are distinct. -/
def NamesDistinct : Value → Prop
  | .array items => ItemsNamesDistinct items
  | .object fields => (Fields.names fields).Nodup ∧ FieldsNamesDistinct fields
  | .null | .bool _ | .number _ | .string _ | .date _ => True

/-- The names of every object within the items are distinct. -/
def ItemsNamesDistinct : List Value → Prop
  | [] => True
  | item :: items => NamesDistinct item ∧ ItemsNamesDistinct items

/-- The names of every object within the values of the fields are distinct. -/
def FieldsNamesDistinct : List (String × Value) → Prop
  | [] => True
  | (_, value) :: fields => NamesDistinct value ∧ FieldsNamesDistinct fields

end

/-- Fields keep their names in JSON. -/
theorem names_fieldsJson (fields : List (String × Value)) :
    Fields.names (fieldsJson fields) = Fields.names fields := by
  induction fields with
  | nil => rfl
  | cons field fields ih =>
    obtain ⟨name, value⟩ := field
    exact congrArg (name :: ·) ih

mutual

/-- A text can stand for the JSON form of a value with distinct names. -/
theorem sound_json (v : Value) (h : v.NamesDistinct) : v.json.Sound := by
  match v with
  | .null | .bool b | .string s | .date t => trivial
  | .number n => exact n.sound_json
  | .array items => exact itemsSound_itemsJson items h
  | .object fields =>
    refine ⟨?_, membersSound_fieldsJson fields h.2⟩
    rw [names_fieldsJson]
    exact h.1

theorem itemsSound_itemsJson (items : List Value) (h : ItemsNamesDistinct items) :
    Json.ItemsSound (itemsJson items) := by
  match items with
  | [] => trivial
  | item :: items => exact ⟨sound_json item h.1, itemsSound_itemsJson items h.2⟩

theorem membersSound_fieldsJson (fields : List (String × Value)) (h : FieldsNamesDistinct fields) :
    Json.MembersSound (fieldsJson fields) := by
  match fields with
  | [] => trivial
  | (_, value) :: fields => exact ⟨sound_json value h.1, membersSound_fieldsJson fields h.2⟩

end

end Value

namespace Record

/-- What a record is after it was saved and loaded, if its numbers are kept. -/
def reloaded (r : Record) : Record := ⟨Value.fieldsReloaded r.fields⟩

/-- What a record is after it was saved and loaded: what its JSON form holds once its numbers were
read again. -/
def reread (r : Record) : Record :=
  ⟨Value.ofMembers (Json.membersReread (Value.fieldsJson r.fields))⟩

/-- The names of the record, and of every object within it, are distinct. -/
def NamesDistinct (r : Record) : Prop := (Value.object r.fields).NamesDistinct

/-- The JSON form of a record holds what the record is after it was loaded. -/
theorem ofJson?_json (r : Record) : ofJson? r.json = some r.reloaded := by
  rw [ofJson?, json, Value.ofJson_json, Value.reloaded]
  rfl

theorem ofJson?_reread_json (r : Record) : ofJson? r.json.reread = some r.reread := rfl

/-- A record whose numbers are kept loses nothing else than what JSON lacks. -/
theorem reread_eq_reloaded {r : Record} (h : r.json.NumbersKept) : r.reread = r.reloaded := by
  have hreread := r.ofJson?_reread_json
  rw [h, r.ofJson?_json] at hreread
  exact (Option.some.inj hreread).symm

theorem jsonText_reloaded (r : Record) : r.reloaded.jsonText = r.jsonText :=
  congrArg Json.text (Value.json_reloaded (.object r.fields))

/-- The text of a record tells records apart exactly up to what loading leaves of them. -/
theorem jsonText_eq_iff {a b : Record} (ha : a.NamesDistinct) (hb : b.NamesDistinct) :
    a.jsonText = b.jsonText ↔ a.reloaded = b.reloaded := by
  constructor
  · intro h
    have hjson : a.json = b.json :=
      Json.text_inj (Value.sound_json _ ha) (Value.sound_json _ hb) h
    have hrecord := a.ofJson?_json
    rw [hjson, b.ofJson?_json] at hrecord
    exact (Option.some.inj hrecord).symm
  · intro h
    rw [← a.jsonText_reloaded, h, b.jsonText_reloaded]

end Record

end LooseRecords
