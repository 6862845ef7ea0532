import LooseRecords.Proofs.Edit.Creation
import LooseRecords.Proofs.Json.Lines
import LooseRecords.Proofs.Load.Lines

/-!
# Records given as JSON

Records come as a JSON text that is loaded, as a payload that is a text, or as a payload that is the
value itself. `Edit.payloads_agree` says that these ways lead to the same records, and where an
object with a member `json` makes a difference.
-/

namespace LooseRecords

/-! ## The records that a value is -/

/-- The record is the JSON object. -/
def Record.Of (j : Json) (r : Record) : Prop :=
  ∃ members, j = .object members ∧ r = ⟨Value.ofMembers members⟩

theorem Record.ofJson?_eq_some_iff (j : Json) (r : Record) :
    ofJson? j = some r ↔ Of j r := by
  cases j <;> simp [ofJson?, Value.ofJson, Of, eq_comm]

/-- The records are those of the value: one for an object, whatever its members are, and one for
each item of an array of objects. -/
inductive Json.IsRecords : Json → RecordSet → Prop where
  | object (members : List (String × Json)) :
    IsRecords (.object members) [⟨Value.ofMembers members⟩]
  | array {items : List Json} {records : RecordSet} (h : List.Forall₂ Record.Of items records) :
    IsRecords (.array items) records

theorem Json.isRecords_object_iff (members : List (String × Json)) (records : RecordSet) :
    (object members).IsRecords records ↔ [⟨Value.ofMembers members⟩] = records := by
  refine ⟨fun h => ?_, fun h => h ▸ .object members⟩
  cases h
  rfl

theorem Json.isRecords_array_iff (items : List Json) (records : RecordSet) :
    (array items).IsRecords records ↔ List.Forall₂ Record.Of items records := by
  refine ⟨fun h => ?_, .array⟩
  cases h with
  | array h => exact h

theorem RecordSet.ofJson?_array_eq_some_iff (items : List Json) (records : RecordSet) :
    ofJson? (.array items) = some records ↔ List.Forall₂ Record.Of items records := by
  show items.mapM Record.ofJson? = some records ↔ _
  induction items generalizing records with
  | nil => simp [eq_comm]
  | cons item items ih =>
    rw [List.mapM_cons, List.forall₂_cons_left_iff]
    simp only [← Record.ofJson?_eq_some_iff, ← ih]
    cases Record.ofJson? item <;> cases items.mapM Record.ofJson? <;> simp [eq_comm]

theorem Json.holdsRecords_array_iff (items : List Json) :
    (array items).HoldsRecords ↔ ∀ item ∈ items, ∃ members, item = .object members := by
  refine ⟨fun h => ?_, .array⟩
  cases h with
  | array h => exact h

/-- A value is some records exactly if it is an object or an array of objects. -/
theorem Json.exists_isRecords_iff (j : Json) :
    (∃ records, j.IsRecords records) ↔ j.HoldsRecords := by
  constructor
  · rintro ⟨records, h⟩
    cases h with
    | object members => exact .object members
    | array h =>
      refine .array fun item hitem => ?_
      obtain ⟨r, members, hmembers, -⟩ := (exists_forall₂_iff _).1 ⟨_, h⟩ item hitem
      exact ⟨members, hmembers⟩
  · intro h
    cases h with
    | object members => exact ⟨_, .object members⟩
    | array hitems =>
      obtain ⟨records, h⟩ := (exists_forall₂_iff (R := Record.Of) _).2 fun item hitem => by
        obtain ⟨members, hmembers⟩ := hitems item hitem
        exact ⟨_, members, hmembers, rfl⟩
      exact ⟨records, .array h⟩

namespace Edit

/-- A payload has the records of what it contains. -/
theorem payloadRecords_eq_ok_iff (payload : Json) (records : RecordSet) :
    payloadRecords payload = .ok records ↔ (unwrap payload).IsRecords records := by
  unfold payloadRecords
  dsimp only
  cases unwrap payload with
  | object members =>
    show Except.ok [⟨Value.ofMembers members⟩] = .ok records ↔ _
    rw [Json.isRecords_object_iff, Except.ok.injEq]
  | array items =>
    rw [Json.isRecords_array_iff, ← RecordSet.ofJson?_array_eq_some_iff]
    have hitems : ((Record.ofJson? (.array items)).map ([·]) <|> RecordSet.ofJson? (.array items)) =
        RecordSet.ofJson? (.array items) := rfl
    rw [hitems]
    cases RecordSet.ofJson? (.array items) <;> simp
  | null | bool | integer | double | string =>
    refine ⟨fun h => ?_, fun h => ?_⟩ <;> cases h

/-- A payload whose content is no records is refused. -/
theorem payloadRecords_eq_error {payload : Json} (h : ¬ (unwrap payload).HoldsRecords) :
    payloadRecords payload = .error .unreadablePayload := by
  rw [payloadRecords_eq_error_iff]
  refine ⟨rfl, fun content hcontent => ?_⟩
  rw [contains_iff] at hcontent
  rwa [hcontent]

end Edit

namespace Load

/-- A text that stands for a value has the records of that value. -/
theorem json_eq_ok_iff_isRecords {text : String} {content : Json}
    (h : Json.read? (Text.trim text.toList) = some content) (records : RecordSet) :
    json text = .ok records ↔ content.IsRecords records := by
  have hempty : (Text.trim text.toList).isEmpty = false := by
    rw [List.isEmpty_eq_false_iff]
    intro hnil
    rw [hnil] at h
    cases h
  unfold json
  simp only [hempty, h, Bool.false_eq_true, if_false]
  cases content with
  | object members =>
    show Except.ok [⟨Value.ofMembers members⟩] = .ok records ↔ _
    rw [Json.isRecords_object_iff, Except.ok.injEq]
  | array items =>
    simp only [rows_eq_ok_iff, Record.ofJson?_eq_some_iff, Json.isRecords_array_iff]
  | null | bool | integer | double | string =>
    refine ⟨fun h => ?_, fun h => ?_⟩ <;> cases h

/-- A document that stands for no value does not stand for values on its lines either. -/
theorem json_ne_ok {text : String} {d : Json.Document}
    (hdocument : Json.Document.read? text.toList = some d) (h : Json.read? text.toList = none)
    (records : RecordSet) : json text ≠ .ok records := by
  have hvalue : d.value? Json.depthLimit = none := by rwa [Json.read?, hdocument] at h
  have htrim : Json.read? (Text.trim text.toList) = none := (Json.read?_trim hdocument).trans h
  rw [ne_eq, json_eq_ok_iff htrim]
  intro hlines
  have hread : ∀ line ∈ Text.lines text.toList, ∃ e value,
      Json.Document.read? line = some e ∧ e.value? Json.depthLimit = some value := by
    intro line hline
    obtain ⟨r, members, hmembers, -⟩ := (exists_forall₂_iff _).1 ⟨_, hlines⟩ line hline
    obtain ⟨e, he, hvalue⟩ := Option.bind_eq_some_iff.1 hmembers
    exact ⟨e, _, he, hvalue⟩
  obtain ⟨line, hsingle, hline⟩ := Json.Document.lines_eq_singleton hdocument fun line hline => by
    obtain ⟨e, _, he, -⟩ := hread line hline
    rw [he, Option.isSome_some]
  obtain ⟨e, value, he, hsome⟩ := hread line (by simp [hsingle])
  cases he.symm.trans hline
  cases hvalue.symm.trans hsome

/-- A text that is one document has the records of what it stands for. -/
theorem json_eq_ok_iff_exists {text : String} {d : Json.Document}
    (h : Json.Document.read? text.toList = some d) (records : RecordSet) :
    json text = .ok records ↔
      ∃ content, Json.read? text.toList = some content ∧ content.IsRecords records := by
  cases hread : Json.read? text.toList with
  | none => simp [json_ne_ok h hread records]
  | some content =>
    have htrim := (Json.read?_trim h).trans hread
    simp [json_eq_ok_iff_isRecords htrim]

end Load

namespace Edit

theorem unwrap_text {text : String} {content : Json} (h : Json.read? text.toList = some content) :
    unwrap (.string text) = content := by
  rw [unwrap, h, Option.getD_some]

theorem unwrap_member {members : List (String × Json)} {content : Json}
    (h : Fields.get? members "json" = some content) : unwrap (.object members) = content := by
  simp [unwrap, h]

/-- A payload that is a text has the records of what it stands for. -/
theorem payloadRecords_string_eq_ok_iff (text : String) (records : RecordSet) :
    payloadRecords (.string text) = .ok records ↔
      ∃ content, Json.read? text.toList = some content ∧ content.IsRecords records := by
  rw [payloadRecords_eq_ok_iff]
  cases h : Json.read? text.toList with
  | none =>
    have hself : ¬ (Json.string text).IsRecords records := by
      intro hrecords
      cases hrecords
    simpa [unwrap, h] using hself
  | some content => simp [unwrap_text h]

/-- A payload that is neither a text nor an object with a member `json` contains itself. -/
theorem unwrap_eq_self {payload : Json} (htext : ∀ text, payload ≠ .string text)
    (hmember : ∀ members, payload = .object members → Fields.get? members "json" = none) :
    unwrap payload = payload := by
  cases payload with
  | string text => exact absurd rfl (htext text)
  | object members => simp [unwrap, hmember members rfl]
  | null | bool | integer | double | array => rfl

/-- The ways to give records as JSON agree. A payload that is a text has the records that are loaded
from it if it is one document, and is refused if it stands for no value. Any other payload whose
numbers are read as they are written has the same result as its own text, but for an object with a
member `json`: that one has the records of the member as it stands, which is neither a text to be
read nor an object to be opened once more. An array is accepted exactly if it holds objects only. -/
theorem payloads_agree :
    (∀ (text : String) d, Json.Document.read? text.toList = some d → ∀ records,
      payloadRecords (.string text) = .ok records ↔ Load.json text = .ok records) ∧
    (∀ text : String, Json.read? text.toList = none →
      payloadRecords (.string text) = .error .unreadablePayload) ∧
    (∀ payload : Json, (∀ text, payload ≠ .string text) →
      (∀ members, payload = .object members → Fields.get? members "json" = none) →
      payload.Sound → payload.nesting ≤ Json.depthLimit → payload.NumbersKept →
        payloadRecords payload = payloadRecords (.string (String.ofList payload.text))) ∧
    (∀ members content, Fields.get? members "json" = some content →
      (∀ records, payloadRecords (.object members) = .ok records ↔ content.IsRecords records) ∧
      ((∃ records, payloadRecords (.object members) = .ok records) ↔ content.HoldsRecords) ∧
      (¬ content.HoldsRecords → payloadRecords (.object members) = .error .unreadablePayload)) ∧
    ∀ items, (∃ records, payloadRecords (.array items) = .ok records) ↔
      ∀ item ∈ items, ∃ members, item = .object members := by
  have hmember : ∀ members content, Fields.get? members "json" = some content → ∀ records,
      payloadRecords (.object members) = .ok records ↔ content.IsRecords records := by
    intro members content h records
    rw [payloadRecords_eq_ok_iff, unwrap_member h]
  refine ⟨fun text d h records => ?_, fun text h => ?_,
    fun payload htext hplain hsound hnesting hkept => ?_,
    fun members content h => ⟨hmember members content h, ?_, fun hholds => ?_⟩, fun items => ?_⟩
  · rw [payloadRecords_string_eq_ok_iff, Load.json_eq_ok_iff_exists h]
  · apply payloadRecords_eq_error
    rw [unwrap, h, Option.getD_none]
    intro hholds
    cases hholds
  · have hread : Json.read? (String.ofList payload.text).toList = some payload := by
      rw [String.toList_ofList, Json.read?_text hsound hnesting hkept]
    have hcontent : unwrap payload = unwrap (.string (String.ofList payload.text)) :=
      (unwrap_eq_self htext hplain).trans (unwrap_text hread).symm
    rw [payloadRecords, payloadRecords, hcontent]
  · simp only [hmember members content h]
    exact Json.exists_isRecords_iff content
  · apply payloadRecords_eq_error
    rwa [unwrap_member h]
  · simp only [payloadRecords_eq_ok_iff]
    exact (Json.exists_isRecords_iff (.array items)).trans (Json.holdsRecords_array_iff items)

/-- An object within an object under the name `json`, the same as texts, and an array with an item
that is no object. -/
theorem payloads_agree_wrapped :
    let inner : Json := .object [("json", .object [("a", .integer 1)])]
    let text := " \x7b\"json\":\x7b\"a\":1\x7d\x7d\n"
    let r : Record := ⟨[("json", .object [("a", .number (.ofNat 1))])]⟩
    let half : Json := .object [("b", .double (.ofRatio false 1 2))]
    let s : Record := ⟨[("b", .number (.ofRatio false 1 2))]⟩
    Json.read? text.toList = some inner ∧ Load.json text = .ok [r] ∧
      payloadRecords (.string text) = .ok [r] ∧
      payloadRecords (.object [("json", inner)]) = .ok [r] ∧
      payloadRecords (.object [("json", .string text)]) = .error .unreadablePayload ∧
      Json.read? "\x7b\x7d\n\x7b\x7d".toList = none ∧
      payloadRecords (.string "\x7b\x7d\n\x7b\x7d") = .error .unreadablePayload ∧
      (Json.array [half, inner]).NumbersKept ∧
      payloadRecords (.array [half, inner]) = .ok [s, r] ∧
      payloadRecords (.string (String.ofList (Json.array [half, inner]).text)) = .ok [s, r] ∧
      ¬ ∃ records, payloadRecords (.array [.object [], .integer 5]) = .ok records := by
  intro inner text r half s
  obtain ⟨htext, hnone, hinline, hmember, harray⟩ := payloads_agree
  have hread : Json.read? text.toList = some inner := by decide +kernel
  have hlines : Json.read? "\x7b\x7d\n\x7b\x7d".toList = none := by decide +kernel
  have hrecords : inner.IsRecords [r] := .object _
  obtain ⟨d, hdocument, -⟩ := Option.bind_eq_some_iff.1 hread
  have hloaded : Load.json text = .ok [r] :=
    (Load.json_eq_ok_iff_exists hdocument _).2 ⟨inner, hread, hrecords⟩
  have htextual : ¬ (Json.string text).HoldsRecords := by
    intro h
    cases h
  have hitems : payloadRecords (.array [half, inner]) = .ok [s, r] := rfl
  have hkept : (Json.array [half, inner]).NumbersKept := by decide +kernel
  have hsound : (Json.array [half, inner]).Sound := by
    have hfinite : (Number.ofRatio false 1 2).isFinite = true := by decide +kernel
    obtain ⟨negative, rank, hhalf⟩ := Number.isFinite_iff.1 hfinite
    simp [half, inner, hhalf, Json.Sound, Json.ItemsSound, Json.MembersSound, Fields.names]
  refine ⟨hread, hloaded, (htext text d hdocument _).2 hloaded,
    ((hmember _ inner rfl).1 _).2 hrecords, (hmember _ (.string text) rfl).2.2 htextual, hlines,
    hnone _ hlines, hkept, hitems, ?_, fun h => ?_⟩
  · rw [← hinline _ (by simp) (by simp) hsound (by decide) hkept]
    exact hitems
  · obtain ⟨members, hinteger⟩ := (harray _).1 h (.integer 5) (by simp)
    cases hinteger

end Edit

end LooseRecords
