import LooseRecords.Proofs.Json.Spelling
import LooseRecords.Request.Codec

/-!
# Bundles written and read

A bundle is read back from the text that it is written as, and from any text that spells its parts
in another way: `Bundle.spellings_read_back`. Conditions, assignments and collections of them are
structures within a bundle and may be spelled differently as well.
-/

namespace LooseRecords

open Json (Faithful)

/-! ## Conditions -/

namespace Operator

theorem ofName_name (op : Operator) : ofName op.name = op := by
  cases op <;> decide

/-- Which documents stand for the name of an operator: the name itself, and for an operator that is
not known any name that no operator has. -/
inductive Spelling : Json.Spelling where
  | written (op : Operator) : Spelling (.string op.name) (Json.string op.name).document
  | unknown {name : String} (h : ofName name = .unknown) :
    Spelling (.string Operator.unknown.name) (Json.string name).document

theorem faithful : Faithful Spelling (fun op => .string op.name)
    fun d => (Json.Document.choice? d).map ofName where
  written op := .written op
  read_eq op d h := by
    have hchoice : ∀ name : String,
        (Json.Document.choice? (Json.string name).document).map ofName = some (ofName name) :=
      fun name => congrArg (Option.map ofName) (Faithful.string.read_eq name _ rfl)
    generalize hname : Json.string op.name = j at h
    cases h with
    | written other =>
      rw [hchoice, ← Json.string.inj hname, ofName_name]
    | @unknown name hunknown =>
      rw [hchoice, hunknown, ← ofName_name op, Json.string.inj hname]
      rfl

end Operator

namespace Condition

/-- The members of a condition's JSON form. -/
def members (c : Condition) : List (String × Json) :=
  [("field", .string c.field), ("operator", .string c.operator.name),
   ("value", (c.operand.map Json.string).getD .null)]

/-- How the parts of a condition are spelled. -/
def partSpelling (name : String) : Json.Spelling :=
  if name = "operator" then Operator.Spelling else .written

/-- Which documents stand for a condition. -/
def Spelling : Json.Spelling := .Structure (members {}) partSpelling

theorem faithful : Faithful Spelling json ofDocument? where
  written c := by
    refine .written (.spelled rfl (.spelled (.written c.operator) (.spelled rfl .none)))
  read_eq c d h := by
    have hspelled : Spelling (.object c.members) d := h
    obtain ⟨slots, hslots, hfills⟩ := hspelled.slots? rfl (by decide)
    have hfield : Json.Document.slot slots "field" Json.Document.string? "" = some c.field :=
      hfills.slot .string rfl rfl
    have hoperator : Json.Document.slot slots "operator"
        (fun d => (Json.Document.choice? d).map Operator.ofName) .equals = some c.operator :=
      hfills.slot Operator.faithful rfl rfl
    have hoperand : Json.Document.slot slots "value" Json.Document.optionalString? none =
        some c.operand := hfills.slot .optionalString rfl rfl
    have hplaces : d.slots? ["field", "operator", "value"] = some slots := hslots
    simp only [ofDocument?, hplaces, hfield, hoperator, hoperand, Option.bind_eq_bind,
      Option.bind_some]
    rfl

end Condition

/-! ## Assignments -/

namespace Assignment

/-- The members of an assignment's JSON form. -/
def members (a : Assignment) : List (String × Json) :=
  [("name", .string a.name), ("value", .string a.value)]

/-- Which documents stand for an assignment. -/
def Spelling : Json.Spelling := .Structure (members {}) fun _ => .written

theorem faithful : Faithful Spelling json ofDocument? where
  written a := .written (.spelled rfl (.spelled rfl .none))
  read_eq a d h := by
    have hspelled : Spelling (.object a.members) d := h
    obtain ⟨slots, hslots, hfills⟩ := hspelled.slots? rfl (by decide)
    have hplaces : d.slots? ["name", "value"] = some slots := hslots
    have hname : Json.Document.slot slots "name" Json.Document.string? "" = some a.name :=
      hfills.slot .string rfl rfl
    have hvalue : Json.Document.slot slots "value" Json.Document.string? "" = some a.value :=
      hfills.slot .string rfl rfl
    simp only [ofDocument?, hplaces, hname, hvalue, Option.bind_eq_bind, Option.bind_some]
    rfl

end Assignment

namespace Bundle

/-! ## Collections -/

/-- Which documents stand for a collection. -/
def collectionSpelling (part : String) (item : Json.Spelling) : Json.Spelling :=
  .Structure [(part, .array [])] fun _ => .Items item

theorem faithful_collection {α : Type} {item : Json.Spelling} {json : α → Json}
    {read : Json.Document → Option α} (h : Faithful item json read) (part : String) :
    Faithful (collectionSpelling part item) (collectionJson part json) (collection? part read) where
  written items := .written (.spelled (h.list.written items) .none)
  read_eq items d hd := by
    have hspelled : collectionSpelling part item (.object [(part, .array (items.map json))]) d := hd
    obtain ⟨slots, hslots, hfills⟩ := hspelled.slots? rfl (by simp [Fields.names])
    have hplaces : d.slots? [part] = some slots := hslots
    have hitems : Json.Document.slot slots part (Json.Document.list? read) [] = some items :=
      hfills.slot h.list (if_pos rfl) (if_pos rfl)
    rw [collection?, hplaces]
    exact hitems

/-! ## Bundles -/

/-- How the parts of a bundle are spelled. -/
def partSpelling (name : String) : Json.Spelling :=
  if name ∈ ["filterConditions", "updateConditions", "deleteConditions"] then
    collectionSpelling "conditions" Condition.Spelling
  else if name = "fieldsToUpdate" then collectionSpelling "fields" Assignment.Spelling
  else .written

/-- Which documents stand for a bundle. -/
def Spelling : Json.Spelling := .Structure (members {}) partSpelling

variable {b : Bundle} {slots : Fields Json.Document}

theorem criteria?_of_slots {c : Criteria} {conditions logic caseSensitive : String}
    (hconditions : Json.Document.slot slots conditions
      (collection? "conditions" Condition.ofDocument?) [] = some c.conditions)
    (hlogic : Json.Document.slot slots logic Json.Document.string? "and" = some c.logic)
    (hcase : Json.Document.slot slots caseSensitive Json.Document.bool? false =
      some c.caseSensitive) : criteria? slots conditions logic caseSensitive = some c := by
  simp only [criteria?, hconditions, hlogic, hcase, Option.bind_eq_bind, Option.bind_some]
  rfl

/-- The places of a bundle are filled by its parts. -/
abbrev Filled (b : Bundle) (slots : Fields Json.Document) : Prop :=
  Json.Fills (members {}) partSpelling b.members slots

theorem Filled.text (h : b.Filled slots) (place : String) {text fallback : String}
    (hvalue : Fields.get? b.members place = some (.string text))
    (hdefault : Fields.get? (members {}) place = some (.string fallback))
    (hplain : partSpelling place = .written) :
    Json.Document.slot slots place Json.Document.string? fallback = some text :=
  h.slot (hplain ▸ .string) hvalue hdefault

/-- The payload has one level less than other documents, and needs no more. -/
theorem Filled.payload (h : b.Filled slots) (hsound : b.payload.Sound)
    (hnesting : b.payload.nesting < Json.depthLimit) (hkept : b.payload.NumbersKept) :
    Json.Document.slot slots "dataToAdd" (Json.Document.value? (Json.depthLimit - 1))
      ({} : Bundle).payload = some b.payload := by
  refine h.slot_eq rfl (fun document hwritten => ?_) fun homitted => ?_
  · have hdocument : document = b.payload.document := hwritten
    rw [hdocument, Json.value?_document b.payload hsound (Nat.le_sub_one_of_lt hnesting), hkept]
  · exact Option.some.inj homitted

/-- A step that has a result hands it on. -/
theorem bind_of_eq {α β : Type} {x : Option α} {a : α} {f : α → Option β} {y : Option β}
    (hx : x = some a) (h : f a = y) : (x >>= f) = y := by
  rw [hx]
  exact h

/-- Every spelling of a bundle is read as that bundle. -/
theorem ofDocument?_of_spelling (hsound : b.payload.Sound)
    (hnesting : b.payload.nesting < Json.depthLimit) (hkept : b.payload.NumbersKept)
    {d : Json.Document} (h : Spelling b.json d) : ofDocument? d = some b := by
  have hspelled : Spelling (.object b.members) d := h
  obtain ⟨slots, hslots, hfilled⟩ := hspelled.slots? rfl (by decide)
  have hplaces : d.slots? parameters = some slots := hslots
  have hfills : b.Filled slots := hfilled
  have hconditions := faithful_collection Condition.faithful "conditions"
  have hreadCriteria : criteria? slots "filterConditions" "conditionLogic" "filterCaseSensitive" =
      some b.readCriteria :=
    criteria?_of_slots (hfills.slot hconditions rfl rfl) (hfills.text _ rfl rfl rfl)
      (hfills.slot .bool rfl rfl)
  have hupdateCriteria : criteria? slots "updateConditions" "updateConditionLogic"
      "updateCaseSensitive" = some b.updateCriteria :=
    criteria?_of_slots (hfills.slot hconditions rfl rfl) (hfills.text _ rfl rfl rfl)
      (hfills.slot .bool rfl rfl)
  have hdeleteCriteria : criteria? slots "deleteConditions" "deleteConditionLogic"
      "deleteCaseSensitive" = some b.deleteCriteria :=
    criteria?_of_slots (hfills.slot hconditions rfl rfl) (hfills.text _ rfl rfl rfl)
      (hfills.slot .bool rfl rfl)
  have hassignments : Json.Document.slot slots "fieldsToUpdate"
      (collection? "fields" Assignment.ofDocument?) ({} : Bundle).assignments =
        some b.assignments :=
    hfills.slot (faithful_collection Assignment.faithful _) rfl rfl
  -- One part after the other, in the order in which the reader asks for them.
  unfold ofDocument?
  refine bind_of_eq hplaces ?_
  refine bind_of_eq (hfills.text "operation" rfl rfl rfl) ?_
  refine bind_of_eq (hfills.payload hsound hnesting hkept) ?_
  refine bind_of_eq (hfills.text "position" rfl rfl rfl) ?_
  refine bind_of_eq (hfills.text "readMode" rfl rfl rfl) ?_
  refine bind_of_eq (hfills.text "readRowIndex" rfl rfl rfl) ?_
  refine bind_of_eq (hfills.text "readFieldNames" rfl rfl rfl) ?_
  refine bind_of_eq hreadCriteria ?_
  refine bind_of_eq (hfills.text "sortField" rfl rfl rfl) ?_
  refine bind_of_eq (hfills.text "sortOrder" rfl rfl rfl) ?_
  refine bind_of_eq (hfills.text "searchField" rfl rfl rfl) ?_
  refine bind_of_eq (hfills.text "searchValue" rfl rfl rfl) ?_
  refine bind_of_eq (hfills.slot .bool rfl rfl) ?_
  refine bind_of_eq (hfills.slot .int64 rfl rfl) ?_
  refine bind_of_eq (hfills.slot .int64 rfl rfl) ?_
  refine bind_of_eq (hfills.text "updateMode" rfl rfl rfl) ?_
  refine bind_of_eq (hfills.text "rowIndex" rfl rfl rfl) ?_
  refine bind_of_eq (hfills.text "cellFieldName" rfl rfl rfl) ?_
  refine bind_of_eq (hfills.text "cellValue" rfl rfl rfl) ?_
  refine bind_of_eq hupdateCriteria ?_
  refine bind_of_eq hassignments ?_
  refine bind_of_eq (hfills.text "deleteMode" rfl rfl rfl) ?_
  refine bind_of_eq (hfills.text "deleteRowIndex" rfl rfl rfl) ?_
  refine bind_of_eq hdeleteCriteria ?_
  refine bind_of_eq (hfills.text "uniqueFields" rfl rfl rfl) ?_
  refine bind_of_eq (hfills.text "statsField" rfl rfl rfl) ?_
  refine bind_of_eq (hfills.text "groupByField" rfl rfl rfl) ?_
  rfl

/-- What is written for a part is a spelling of it. -/
theorem partSpelling_members {name : String} {value : Json} (h : (name, value) ∈ b.members) :
    partSpelling name value value.document := by
  have hnodup : (Fields.names b.members).Nodup := by
    show parameters.Nodup
    decide
  have hget : Fields.get? b.members name = some value := (Fields.get?_eq_some_iff hnodup _ _).2 h
  unfold partSpelling
  split
  case isTrue hcollection =>
    have hwritten := (faithful_collection Condition.faithful "conditions").written
    simp only [List.mem_cons, List.not_mem_nil, or_false] at hcollection
    rcases hcollection with rfl | rfl | rfl <;> cases hget <;> exact hwritten _
  case isFalse =>
    split
    case isTrue hassignments =>
      subst hassignments
      cases hget
      exact (faithful_collection Assignment.faithful "fields").written _
    case isFalse => rfl

/-- A bundle with a payload that a text can stand for, and with numbers in it that are read as they
are written, comes back from the text that it is written as, and from every text that spells it: the
members of the bundle, of its collections, and of their conditions and assignments may stand in any
order, may be left out where they have the value that they take anyway, and may stand among members
with names that nobody knows. An operator that is not known stays so, whatever its name is, and an
absent operand stays absent. All of these texts stand for the same request. -/
theorem spellings_read_back {b : Bundle} (hsound : b.payload.Sound)
    (hnesting : b.payload.nesting < Json.depthLimit) (hkept : b.payload.NumbersKept) :
    read? (String.ofList b.json.text) = some b ∧
    ∀ (text : String) (d : Json.Document), Json.Document.read? text.toList = some d →
      Spelling b.json d → read? text = some b ∧ (read? text).map request = some b.request := by
  have hspelled : ∀ (text : String) (d : Json.Document),
      Json.Document.read? text.toList = some d → Spelling b.json d → read? text = some b := by
    intro text d hread hd
    rw [read?, hread]
    exact ofDocument?_of_spelling hsound hnesting hkept hd
  constructor
  · refine hspelled _ b.json.document ?_ (.written (.written fun _ _ => partSpelling_members))
    rw [String.toList_ofList, Json.read?_document]
  · intro text d hread hd
    rw [hspelled text d hread hd]
    exact ⟨rfl, rfl⟩

/-- The parts in reverse order and only those that are changed, with an unknown operator, an absent
operand and two members that nobody knows. -/
theorem spellings_read_back_reversed :
    let b : Bundle := {
      operation := "update"
      payload := .array [.object [("a", .double (.ofRatio true 1 10))]]
      limit := -5
      updateCriteria := { conditions := [{ field := "a", operator := .unknown }], logic := "or" }
      assignments := [{ value := "1" }] }
    let parts : List (String × Json) :=
      [("later", .array [.integer 1]), ("operation", .string "update"), ("dataToAdd", b.payload),
       ("limit", .integer (-5)),
       ("updateConditions", .object [("conditions", .array [.object
         [("note", .null), ("field", .string "a"), ("operator", .string "regex")]])]),
       ("updateConditionLogic", .string "or"),
       ("fieldsToUpdate", .object [("fields", .array [.object [("value", .string "1")]])])]
    let text := String.ofList (Json.object parts.reverse).text
    b.payload.Sound ∧ b.payload.nesting < Json.depthLimit ∧ b.payload.NumbersKept ∧
      Json.Document.read? text.toList = some (Json.object parts.reverse).document ∧
      Spelling b.json (Json.object parts.reverse).document ∧
      read? (String.ofList b.json.text) = some b ∧ read? text = some b ∧
      (read? text).map request = some b.request := by
  intro b parts text
  have hsound : b.payload.Sound := by
    have hfinite : (Number.ofRatio true 1 10).isFinite = true := by decide +kernel
    obtain ⟨negative, rank, htenth⟩ := Number.isFinite_iff.1 hfinite
    simp [b, htenth, Json.Sound, Json.ItemsSound, Json.MembersSound, Fields.names]
  have hkept : b.payload.NumbersKept := by decide +kernel
  have hread : Json.Document.read? text.toList = some (Json.object parts.reverse).document := by
    rw [String.toList_ofList, Json.read?_document]
  have hcondition : Condition.Spelling (.object (Condition.members ⟨"a", .unknown, none⟩))
      (Json.object [("note", .null), ("field", .string "a"),
        ("operator", .string "regex")]).document :=
    .written (.unknown (by decide)
      (.spelled rfl (.spelled (.unknown (by decide)) (.omitted rfl .none))))
  have hassignment : Assignment.Spelling (.object (Assignment.members ⟨"", "1"⟩))
      (Json.object [("value", .string "1")]).document :=
    .written (.omitted rfl (.spelled rfl .none))
  have hchanged : b.members.filter (fun entry =>
      Fields.get? (members {}) entry.1 ≠ some entry.2) =
        [("operation", .string "update"), ("dataToAdd", b.payload), ("limit", .integer (-5)),
         ("updateConditions", collectionJson "conditions" Condition.json
           b.updateCriteria.conditions),
         ("updateConditionLogic", .string "or"),
         ("fieldsToUpdate", collectionJson "fields" Assignment.json b.assignments)] := by
    decide +kernel
  have hparts : Json.Parts (members {}) partSpelling b.members (Json.writtenParts parts) := by
    refine .of_changed ?_
    rw [hchanged]
    exact .unknown (by decide) (.spelled rfl (.spelled rfl (.spelled rfl
      (.spelled (.written (.spelled (.array (.cons hcondition .nil)) .none))
        (.spelled rfl
          (.spelled (.written (.spelled (.array (.cons hassignment .nil)) .none)) .none))))))
  have hspelled : Spelling b.json (Json.object parts.reverse).document :=
    .written (.reordered hparts (List.reverse_perm _).symm)
  obtain ⟨hwritten, hother⟩ := spellings_read_back hsound (by decide) hkept
  exact ⟨hsound, by decide, hkept, hread, hspelled, hwritten, hother text _ hread hspelled⟩

end Bundle

end LooseRecords
