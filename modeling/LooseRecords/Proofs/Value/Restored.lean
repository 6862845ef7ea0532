import LooseRecords.Proofs.Number.Value
import LooseRecords.Proofs.Value.Display
import LooseRecords.Proofs.Value.Distinct

/-!
# JSON texts written again

A value that was read from a JSON text is written as a JSON text that can be read: it is nested no
more deeply than the first text, and it holds neither dates nor numbers that JSON has not. What is
read is the value itself if its numbers are kept, except that a negative zero has lost its sign:
`Value.read?_jsonText_ofJson` and `Value.ofJson_json_ofJson`.
-/

namespace LooseRecords

/-! ## Nesting -/

namespace Json

theorem membersNesting_le_iff {members : List (String × Json)} {depth : Nat} :
    membersNesting members ≤ depth ↔ ∀ member ∈ members, member.2.nesting ≤ depth := by
  induction members with
  | nil => simp [membersNesting]
  | cons member members ih => rw [membersNesting, Nat.max_le, ih, List.forall_mem_cons]

namespace Document

theorem nesting_of_numberValue? {n : Numeral} {j : Json} (h : numberValue? n = some j) :
    j.nesting = 0 := by
  have hfinite : numberValue?.finite? n = some j → j.nesting = 0 := by
    intro hj
    rw [numberValue?.finite?] at hj
    split at hj
    case h_1 =>
      cases hj
      rfl
    case h_2 => cases hj
  unfold numberValue? at h
  split at h
  case h_1 =>
    split at h
    case isTrue =>
      cases h
      rfl
    case isFalse => exact hfinite h
  case h_2 => exact hfinite h

mutual

/-- What a document stands for is nested no more deeply than it may be. -/
theorem nesting_le_of_value? (d : Document) {depth : Nat} {j : Json} (h : d.value? depth = some j) :
    j.nesting ≤ depth := by
  match d with
  | .null | .bool b =>
    cases h
    exact Nat.zero_le depth
  | .number n =>
    rw [nesting_of_numberValue? h]
    exact Nat.zero_le depth
  | .string pieces =>
    obtain ⟨s, -, rfl⟩ := Option.map_eq_some_iff.1 h
    exact Nat.zero_le depth
  | .array items =>
    rw [value?] at h
    obtain ⟨hne, h⟩ := Option.ite_none_left_eq_some.1 h
    obtain ⟨values, hvalues, rfl⟩ := Option.map_eq_some_iff.1 h
    have hle := itemsNesting_le_of_itemValues? items hvalues
    rw [nesting]
    omega
  | .object members =>
    rw [value?] at h
    obtain ⟨hne, h⟩ := Option.ite_none_left_eq_some.1 h
    obtain ⟨entries, hentries, rfl⟩ := Option.map_eq_some_iff.1 h
    have hentries := membersNesting_le_iff.1 (membersNesting_le_of_memberValues? members hentries)
    have hle : membersNesting (Fields.ofList entries) ≤ depth - 1 :=
      membersNesting_le_iff.2 fun entry hentry => hentries entry (Fields.mem_ofList hentry)
    rw [nesting]
    omega

theorem itemsNesting_le_of_itemValues? (items : List Document) {depth : Nat} {values : List Json}
    (h : itemValues? depth items = some values) : itemsNesting values ≤ depth := by
  match items with
  | [] =>
    cases h
    exact Nat.zero_le depth
  | item :: items =>
    obtain ⟨first, hfirst, h⟩ := Option.bind_eq_some_iff.1 h
    obtain ⟨rest, hrest, h⟩ := Option.bind_eq_some_iff.1 h
    cases h
    exact Nat.max_le.2
      ⟨nesting_le_of_value? item hfirst, itemsNesting_le_of_itemValues? items hrest⟩

theorem membersNesting_le_of_memberValues? (members : List (List Piece × Document)) {depth : Nat}
    {entries : List (String × Json)} (h : memberValues? depth members = some entries) :
    membersNesting entries ≤ depth := by
  match members with
  | [] =>
    cases h
    exact Nat.zero_le depth
  | (name, document) :: members =>
    obtain ⟨name, -, h⟩ := Option.bind_eq_some_iff.1 h
    obtain ⟨first, hfirst, h⟩ := Option.bind_eq_some_iff.1 h
    obtain ⟨rest, hrest, h⟩ := Option.bind_eq_some_iff.1 h
    cases h
    exact Nat.max_le.2
      ⟨nesting_le_of_value? document hfirst, membersNesting_le_of_memberValues? members hrest⟩

end

end Document

/-- What a text stands for is nested no more deeply than a text may be. -/
theorem nesting_le_of_read? {text : List Char} {j : Json} (h : read? text = some j) :
    j.nesting ≤ depthLimit := by
  obtain ⟨d, -, hd⟩ := Option.bind_eq_some_iff.1 h
  exact Document.nesting_le_of_value? d hd

end Json

/-! ## Numbers -/

namespace Number

theorem nesting_json (n : Number) : n.json.nesting = 0 := by
  cases n with
  | nan | infinite => rfl
  | finite negative rank =>
    rw [json]
    cases (finite negative rank).toInt? with
    | none => rfl
    | some i =>
      show Json.nesting (if i.natAbs < 2 * Rank.binade then _ else _) = 0
      split <;> rfl

end Number

namespace Value

/-! ## Values -/

mutual

/-- The value with zero for each negative zero in it. -/
def unsignedZeros : Value → Value
  | .number n => .number n.unsignedZero
  | .array items => .array (itemsUnsigned items)
  | .object fields => .object (fieldsUnsigned fields)
  | value => value

/-- The items with zero for each negative zero in them. -/
def itemsUnsigned : List Value → List Value
  | [] => []
  | item :: items => unsignedZeros item :: itemsUnsigned items

/-- The fields with zero for each negative zero in them. -/
def fieldsUnsigned : List (String × Value) → List (String × Value)
  | [] => []
  | (name, value) :: fields => (name, unsignedZeros value) :: fieldsUnsigned fields

end

mutual

/-- Writing a JSON value again nests it no deeper. -/
theorem nesting_json_ofJson (j : Json) : (ofJson j).json.nesting = j.nesting := by
  match j with
  | .null | .bool b | .string s => rfl
  | .integer i => exact Number.nesting_json _
  | .double n => exact Number.nesting_json n
  | .array items =>
    rw [ofJson, json, Json.nesting, itemsNesting_itemsJson_ofItems items, Json.nesting]
  | .object members =>
    rw [ofJson, json, Json.nesting, membersNesting_fieldsJson_ofMembers members, Json.nesting]

theorem itemsNesting_itemsJson_ofItems (items : List Json) :
    Json.itemsNesting (itemsJson (ofItems items)) = Json.itemsNesting items := by
  match items with
  | [] => rfl
  | item :: items =>
    rw [ofItems, itemsJson, Json.itemsNesting, nesting_json_ofJson item,
      itemsNesting_itemsJson_ofItems items, Json.itemsNesting]

theorem membersNesting_fieldsJson_ofMembers (members : List (String × Json)) :
    Json.membersNesting (fieldsJson (ofMembers members)) = Json.membersNesting members := by
  match members with
  | [] => rfl
  | (name, value) :: members =>
    rw [ofMembers, fieldsJson, Json.membersNesting, nesting_json_ofJson value,
      membersNesting_fieldsJson_ofMembers members, Json.membersNesting]

end

theorem reloaded_finite (negative : Bool) (rank : Fin Rank.count) :
    (Number.finite negative rank).reloaded =
      .number (Number.finite negative rank).unsignedZero := by
  rw [Number.unsignedZero_finite, Number.reloaded]

-- No date and no number that is not finite comes from a JSON value for which a text can stand.
mutual

/-- Saving and loading what was read from JSON costs it no more than the signs of zeros. -/
theorem reloaded_ofJson (j : Json) (h : j.Sound) :
    (ofJson j).reloaded = (ofJson j).unsignedZeros := by
  match j with
  | .null | .bool b | .string s => rfl
  | .integer i =>
    obtain ⟨negative, rank, hnumber⟩ := Number.exists_ofInt_eq h.1 h.2
    rw [ofJson, hnumber]
    exact reloaded_finite negative rank
  | .double n =>
    obtain ⟨negative, rank, rfl⟩ := h
    exact reloaded_finite negative rank
  | .array items => rw [ofJson, reloaded, itemsReloaded_ofItems items h, unsignedZeros]
  | .object members => rw [ofJson, reloaded, fieldsReloaded_ofMembers members h.2, unsignedZeros]

theorem itemsReloaded_ofItems (items : List Json) (h : Json.ItemsSound items) :
    itemsReloaded (ofItems items) = itemsUnsigned (ofItems items) := by
  match items with
  | [] => rfl
  | item :: items =>
    rw [ofItems, itemsReloaded, reloaded_ofJson item h.1, itemsReloaded_ofItems items h.2,
      itemsUnsigned]

theorem fieldsReloaded_ofMembers (members : List (String × Json)) (h : Json.MembersSound members) :
    fieldsReloaded (ofMembers members) = fieldsUnsigned (ofMembers members) := by
  match members with
  | [] => rfl
  | (name, value) :: members =>
    rw [ofMembers, fieldsReloaded, reloaded_ofJson value h.1, fieldsReloaded_ofMembers members h.2,
      fieldsUnsigned]

end

/-- What was read from JSON, written and read again: negative zeros have lost their sign. -/
theorem ofJson_json_ofJson {j : Json} (h : j.Sound) :
    ofJson (ofJson j).json = (ofJson j).unsignedZeros := by
  rw [ofJson_json, reloaded_ofJson j h]

/-- What was read from a text can be read again from the text that is written for it. -/
theorem read?_jsonText_ofJson {text : List Char} {j : Json} (h : Json.read? text = some j)
    (hkept : (ofJson j).json.NumbersKept) :
    Json.read? (ofJson j).jsonText = some (ofJson j).json := by
  have hsound := sound_json _ (namesDistinct_ofJson j (Json.sound_of_read? h))
  have hdepth := Json.nesting_le_of_read? h
  rw [← nesting_json_ofJson] at hdepth
  exact Json.read?_text hsound hdepth hkept

end Value

end LooseRecords
