import LooseRecords.Proofs.Json.Distinct
import LooseRecords.Proofs.Value.Reloaded
import LooseRecords.Proofs.Value.Stored

/-!
# Values with distinct names

Where values come from, no name is repeated in an object: what a JSON value is as a field value,
what a written text is stored as, and what assignments make of a record. Main statements:
`Value.namesDistinct_ofJson`, `Value.namesDistinct_ofWritten`, `Record.NamesDistinct.insertAll`, and
for the text of such a record `Record.shownAs_document`.
-/

namespace LooseRecords

namespace Value

theorem fieldsNamesDistinct_iff (fields : List (String × Value)) :
    FieldsNamesDistinct fields ↔ ∀ field ∈ fields, field.2.NamesDistinct := by
  induction fields with
  | nil => simp [FieldsNamesDistinct]
  | cons field fields ih => rw [FieldsNamesDistinct, ih, List.forall_mem_cons]

/-- Members keep their names as fields. -/
theorem names_ofMembers (members : List (String × Json)) :
    Fields.names (ofMembers members) = Fields.names members := by
  induction members with
  | nil => rfl
  | cons member members ih => exact congrArg (member.1 :: ·) ih

mutual

/-- A JSON value for which a text can stand has distinct names as a field value. -/
theorem namesDistinct_ofJson (j : Json) (h : j.Sound) : (ofJson j).NamesDistinct := by
  match j with
  | .null | .bool b | .integer i | .double n | .string s => trivial
  | .array items => exact itemsNamesDistinct_ofItems items h
  | .object members =>
    refine ⟨?_, fieldsNamesDistinct_ofMembers members h.2⟩
    rw [names_ofMembers]
    exact h.1

theorem itemsNamesDistinct_ofItems (items : List Json) (h : Json.ItemsSound items) :
    ItemsNamesDistinct (ofItems items) := by
  match items with
  | [] => trivial
  | item :: items =>
    exact ⟨namesDistinct_ofJson item h.1, itemsNamesDistinct_ofItems items h.2⟩

theorem fieldsNamesDistinct_ofMembers (members : List (String × Json))
    (h : Json.MembersSound members) : FieldsNamesDistinct (ofMembers members) := by
  match members with
  | [] => trivial
  | (_, value) :: members =>
    exact ⟨namesDistinct_ofJson value h.1, fieldsNamesDistinct_ofMembers members h.2⟩

end

/-- A written text is stored as a value with distinct names. -/
theorem namesDistinct_ofWritten (raw : String) : (ofWritten raw).NamesDistinct := by
  rcases suggests_or_string raw with hsuggests | hstring
  · generalize ofWritten raw = value at hsuggests
    cases hsuggests with
    | null | true | false | number | date => trivial
    | array hread => exact namesDistinct_ofJson _ (Json.sound_of_read? hread)
    | object hread => exact namesDistinct_ofJson _ (Json.sound_of_read? hread)
  · rw [hstring]
    trivial

/-- Each member of an object's document is one of the fields. -/
theorem exists_field_of_mem {fields : List (String × Value)}
    {member : List Json.Piece × Json.Document}
    (h : member ∈ Json.memberDocuments (fieldsJson fields)) :
    ∃ field ∈ fields, Json.Document.resolve? member.1 = some field.1 ∧
      member.2 = field.2.json.document := by
  induction fields with
  | nil => cases h
  | cons field fields ih =>
    rcases List.mem_cons.1 h with rfl | hrest
    · exact ⟨field, List.mem_cons_self, Json.resolve?_written field.1, rfl⟩
    · obtain ⟨found, hfound, hshown⟩ := ih hrest
      exact ⟨found, List.mem_cons_of_mem _ hfound, hshown⟩

end Value

namespace Record

theorem namesDistinct_iff (r : Record) :
    r.NamesDistinct ↔ r.names.Nodup ∧ ∀ field ∈ r.fields, field.2.NamesDistinct := by
  rw [← Value.fieldsNamesDistinct_iff]
  rfl

/-- What a field of a record holds has distinct names. -/
theorem NamesDistinct.of_get? {r : Record} (h : r.NamesDistinct) {name : String} {value : Value}
    (hvalue : r.get? name = some value) : value.NamesDistinct := by
  obtain ⟨hnodup, hvalues⟩ := r.namesDistinct_iff.1 h
  exact hvalues (name, value) ((Fields.get?_eq_some_iff hnodup name value).1 hvalue)

/-- Assignments keep names distinct, however often they assign one. -/
theorem NamesDistinct.insertAll {r : Record} (h : r.NamesDistinct)
    {entries : List (String × Value)} (hentries : ∀ entry ∈ entries, entry.2.NamesDistinct) :
    NamesDistinct ⟨Fields.insertAll r.fields entries⟩ := by
  obtain ⟨hnodup, hvalues⟩ := r.namesDistinct_iff.1 h
  refine (namesDistinct_iff _).2
    ⟨Fields.nodup_names_insertAll hnodup entries, fun field hfield => ?_⟩
  rcases Fields.mem_insertAll hfield with hold | hnew
  · exact hvalues field hold
  · exact hentries field hnew

theorem NamesDistinct.insert {r : Record} (h : r.NamesDistinct) (name : String) {value : Value}
    (hvalue : value.NamesDistinct) : (r.insert name value).NamesDistinct := by
  have hentries : ∀ entry ∈ [(name, value)], entry.2.NamesDistinct :=
    List.forall_mem_singleton.2 hvalue
  exact h.insertAll hentries

/-- A record made by assignments has distinct names. -/
theorem namesDistinct_ofList {entries : List (String × Value)}
    (h : ∀ entry ∈ entries, entry.2.NamesDistinct) : (ofList entries).NamesDistinct := by
  have hempty : NamesDistinct ⟨[]⟩ := ⟨.nil, trivial⟩
  exact hempty.insertAll h

/-- A record that is a JSON object has distinct names. -/
theorem namesDistinct_of_ofJson? {j : Json} {r : Record} (hsound : j.Sound)
    (h : ofJson? j = some r) : r.NamesDistinct := by
  unfold ofJson? at h
  split at h
  case h_1 fields hobject =>
    cases h
    have hvalue := Value.namesDistinct_ofJson j hsound
    rwa [hobject] at hvalue
  case h_2 => cases h

/-- The text of a record is a document that repeats no name, and that shows nothing but what a
look-up sees. -/
structure ShownAs (r : Record) (d : Json.Document) : Prop where
  text : Json.Document.read? r.jsonText = some d
  distinct : d.NamesDistinct
  seen : ∃ members, d = .object members ∧ ∀ member ∈ members, ∃ name value,
    Json.Document.resolve? member.1 = some name ∧ r.get? name = some value ∧
      member.2 = value.json.document

theorem shownAs_document {r : Record} (h : r.NamesDistinct) : r.ShownAs r.json.document where
  text := Json.read?_document r.json
  distinct := Json.namesDistinct_document r.json (Value.sound_json (.object r.fields) h)
  seen := by
    refine ⟨_, rfl, fun member hmember => ?_⟩
    obtain ⟨⟨name, value⟩, hfield, hname, hvalue⟩ := Value.exists_field_of_mem hmember
    have hget : r.get? name = some value :=
      (Fields.get?_eq_some_iff (r.namesDistinct_iff.1 h).1 name value).2 hfield
    exact ⟨name, value, hname, hget, hvalue⟩

end Record

end LooseRecords
