import LooseRecords.Edit.Creation

/-!
# Payloads

Which payloads describe records. `Edit.payloadRecords_eq_error_iff` says that a payload is refused
exactly if what it contains is neither an object nor an array of objects.
-/

namespace LooseRecords

namespace Json

/-- The value is an object or an array of objects. -/
inductive HoldsRecords : Json → Prop where
  | object (members : List (String × Json)) : HoldsRecords (.object members)
  | array {items : List Json} (h : ∀ item ∈ items, ∃ members, item = .object members) :
    HoldsRecords (.array items)

end Json

/-- A JSON value is a record exactly if it is an object. -/
theorem Record.isSome_ofJson?_iff (j : Json) :
    (Record.ofJson? j).isSome = true ↔ ∃ members, j = .object members := by
  cases j <;> simp [Record.ofJson?, Value.ofJson]

/-- JSON values are records together exactly if each of them is one. -/
theorem Record.isSome_mapM_ofJson?_iff (items : List Json) :
    (items.mapM Record.ofJson?).isSome = true ↔
      ∀ item ∈ items, ∃ members, item = .object members := by
  induction items with
  | nil => simp
  | cons item items ih =>
    rw [List.forall_mem_cons, ← ih, ← Record.isSome_ofJson?_iff, List.mapM_cons]
    cases Record.ofJson? item with
    | none => simp
    | some r => cases items.mapM Record.ofJson? <;> simp

namespace Edit

/-- What a payload contains. A text contains what it stands for as JSON, once; an object with a
member `json` contains that member; any other payload contains itself. -/
inductive Contains : Json → Json → Prop where
  | text {text : String} {content : Json} (h : Json.read? text.toList = some content) :
    Contains (.string text) content
  | noJson {text : String} (h : Json.read? text.toList = none) :
    Contains (.string text) (.string text)
  | member {members : List (String × Json)} {content : Json}
    (h : Fields.get? members "json" = some content) : Contains (.object members) content
  | noMember {members : List (String × Json)} (h : Fields.get? members "json" = none) :
    Contains (.object members) (.object members)
  | itself {payload : Json} (htext : ∀ text, payload ≠ .string text)
    (hobject : ∀ members, payload ≠ .object members) : Contains payload payload

/-- A payload contains one value. -/
theorem contains_iff (payload content : Json) :
    Contains payload content ↔ content = unwrap payload := by
  constructor
  · intro h
    cases h with
    | text h | noJson h | member h | noMember h => simp [unwrap, h]
    | itself htext hobject =>
      cases payload with
      | string text => exact absurd rfl (htext text)
      | object members => exact absurd rfl (hobject members)
      | null | bool | integer | double | array => rfl
  · rintro rfl
    cases payload with
    | string text =>
      cases h : Json.read? text.toList with
      | none => simpa [unwrap, h] using Contains.noJson h
      | some content => simpa [unwrap, h] using Contains.text h
    | object members =>
      cases h : Fields.get? members "json" with
      | none => simpa [unwrap, h] using Contains.noMember h
      | some content => simpa [unwrap, h] using Contains.member h
    | null | bool | integer | double | array => exact .itself (by simp) (by simp)

/-- A payload is refused exactly if nothing that it contains is an object or an array of
objects. -/
theorem payloadRecords_eq_error_iff (payload : Json) (failure : Failure) :
    payloadRecords payload = .error failure ↔
      failure = .unreadablePayload ∧
        ∀ content, Contains payload content → ¬ content.HoldsRecords := by
  simp only [contains_iff, forall_eq, payloadRecords]
  have hholds : ∀ j : Json,
      ((Record.ofJson? j).map ([·]) <|> RecordSet.ofJson? j).isSome = true ↔ j.HoldsRecords := by
    intro j
    cases j with
    | object members =>
      have h := (Record.isSome_ofJson?_iff (.object members)).2 ⟨members, rfl⟩
      simp [h, Json.HoldsRecords.object]
    | array items =>
      show (items.mapM Record.ofJson?).isSome = true ↔ _
      rw [Record.isSome_mapM_ofJson?_iff]
      exact ⟨.array, fun | .array h => h⟩
    | null | bool | integer | double | string =>
      refine ⟨fun h => ?_, fun h => ?_⟩ <;> cases h
  rw [← hholds]
  cases (Record.ofJson? (unwrap payload)).map ([·]) <|> RecordSet.ofJson? (unwrap payload) with
  | none => simp [eq_comm]
  | some records => simp

end Edit

end LooseRecords
