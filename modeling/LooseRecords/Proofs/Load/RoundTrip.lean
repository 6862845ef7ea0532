import LooseRecords.Load.Json
import LooseRecords.Proofs.Text.Blank
import LooseRecords.Proofs.Value.Reloaded

/-!
# Record sets saved and loaded

The text that a record set is saved as is one JSON document with no blanks around it, and loading it
gives the records back: `Load.json_jsonText`.
-/

namespace LooseRecords

namespace RecordSet

/-- A text can stand for the JSON form of a record set with distinct names. -/
theorem sound_json {records : RecordSet} (h : ∀ r ∈ records, r.NamesDistinct) :
    (json records).Sound := by
  show Json.ItemsSound (records.map Record.json)
  induction records with
  | nil => trivial
  | cons r records ih =>
    exact ⟨Value.sound_json (.object r.fields) (h r (by simp)), ih fun s hs => h s (by simp [hs])⟩

/-- An array is nested one level deeper than its records. -/
theorem nesting_json_le {records : RecordSet} {depth : Nat}
    (h : ∀ r ∈ records, r.json.nesting < depth) (hdepth : 0 < depth) :
    (json records).nesting ≤ depth := by
  show Json.itemsNesting (records.map Record.json) < depth
  induction records with
  | nil => exact hdepth
  | cons r records ih =>
    obtain ⟨hr, hrest⟩ := List.forall_mem_cons.1 h
    exact Nat.max_lt.2 ⟨hr, ih hrest⟩

end RecordSet

namespace Load

/-- The JSON forms of records are rows, each of which holds its record. -/
theorem rows_map_json (row : Nat) (records : RecordSet) :
    rows row (Json.itemsReread (records.map Record.json)) = .ok (records.map Record.reread) := by
  induction records generalizing row with
  | nil => rfl
  | cons r records ih =>
    rw [List.map_cons, Json.itemsReread, rows, r.ofJson?_reread_json]
    show (rows (row + 1) (Json.itemsReread (records.map Record.json))).map (r.reread :: ·) = _
    rw [ih]
    rfl

/-- The text of an array that is not nested too deeply is read as its items, one row each. -/
theorem json_arrayText {items : List Json} (hsound : (Json.array items).Sound)
    (hnesting : (Json.array items).nesting ≤ Json.depthLimit) :
    json (String.ofList (Json.array items).text) = rows 1 (Json.itemsReread items) := by
  have hread : Json.read? (Json.array items).text = some (.array (Json.itemsReread items)) :=
    Json.read?_text_reread hsound hnesting
  have htrim : Text.trim (Json.array items).text = (Json.array items).text :=
    Text.trim_of_ends (by decide) (by decide) _
  have hempty : (Json.array items).text.isEmpty = false := rfl
  rw [json, String.toList_ofList, htrim]
  simp only [hempty, hread, Bool.false_eq_true, if_false]

/-- A record set with distinct names whose JSON form is not nested too deeply is saved as a text
that can be loaded. -/
theorem json_jsonText_reread {records : RecordSet} (hnames : ∀ r ∈ records, r.NamesDistinct)
    (hnesting : (RecordSet.json records).nesting ≤ Json.depthLimit) :
    json (String.ofList (RecordSet.jsonText records)) = .ok (records.map Record.reread) :=
  (json_arrayText (RecordSet.sound_json hnames) hnesting).trans (rows_map_json 1 records)

theorem map_reread_eq {records : RecordSet} (h : ∀ r ∈ records, r.json.NumbersKept) :
    records.map Record.reread = records.map Record.reloaded :=
  List.map_congr_left fun r hr => Record.reread_eq_reloaded (h r hr)

/-- Loading undoes saving. A record set with distinct names whose JSON form is not nested too deeply
and whose numbers are read as they are written is saved as a text from which its records are loaded,
in order and with all that JSON can hold. -/
theorem json_jsonText {records : RecordSet} (hnames : ∀ r ∈ records, r.NamesDistinct)
    (hnesting : (RecordSet.json records).nesting ≤ Json.depthLimit)
    (hkept : ∀ r ∈ records, r.json.NumbersKept) :
    json (String.ofList (RecordSet.jsonText records)) = .ok (records.map Record.reloaded) := by
  rw [json_jsonText_reread hnames hnesting, map_reread_eq hkept]

/-- A field that holds not a number, a negative zero, a tenth and a text with a line break in a
list, and a date. -/
theorem json_jsonText_mixed :
    let records : RecordSet :=
      [⟨[("list", .array [.number .nan, .number (.finite true ⟨0, by decide⟩),
          .number (.ofRatio false 1 10), .string "a\nb"]),
        ("date", .date ⟨0⟩)]⟩]
    (∀ r ∈ records, r.NamesDistinct) ∧ (RecordSet.json records).nesting ≤ Json.depthLimit ∧
      (∀ r ∈ records, r.json.NumbersKept) ∧
      json (String.ofList (RecordSet.jsonText records)) =
        .ok [⟨[("list", .array [.null, .number (.finite false ⟨0, by decide⟩),
            .number (.ofRatio false 1 10), .string "a\nb"]),
          ("date", .string "1970-01-01T00:00:00.000Z")]⟩] := by
  intro records
  have hnames : ∀ r ∈ records, r.NamesDistinct := by
    simp [records, Record.NamesDistinct, Value.NamesDistinct, Value.ItemsNamesDistinct,
      Value.FieldsNamesDistinct, Fields.names]
  have hnesting : (RecordSet.json records).nesting ≤ Json.depthLimit := by decide +kernel
  have hkept : ∀ r ∈ records, r.json.NumbersKept := by decide +kernel
  have htenth : (Number.ofRatio false 1 10).reloaded = .number (.ofRatio false 1 10) := by
    decide +kernel
  have hdate : (Instant.iso ⟨0⟩) = "1970-01-01T00:00:00.000Z".toList := by decide
  refine ⟨hnames, hnesting, hkept, (json_jsonText hnames hnesting hkept).trans ?_⟩
  simp [records, Record.reloaded, Value.fieldsReloaded, Value.reloaded, Value.itemsReloaded, htenth,
    hdate]
  simp [Number.reloaded]

end Load

end LooseRecords
