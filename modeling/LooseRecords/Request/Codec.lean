import LooseRecords.Json.Slots
import LooseRecords.Json.Text
import LooseRecords.Request.Bundle

/-!
# Bundles as JSON

Bundles, groups of conditions and assignments as JSON documents. Writing names every part; reading
lets parts be left out, comes in any order, and takes the parts of a structure from an array too.
-/

namespace LooseRecords

namespace Condition

/-- The condition that a document describes. -/
def ofDocument? (d : Json.Document) : Option Condition := do
  let slots ← d.slots? ["field", "operator", "value"]
  let field ← Json.Document.slot slots "field" Json.Document.string? ""
  let operator ← Json.Document.slot slots "operator"
    (fun d => (Json.Document.choice? d).map Operator.ofName) .equals
  let operand ← Json.Document.slot slots "value" Json.Document.optionalString? none
  return { field, operator, operand }

/-- The JSON form of a condition. -/
def json (c : Condition) : Json :=
  .object
    [("field", .string c.field), ("operator", .string c.operator.name),
     ("value", (c.operand.map Json.string).getD .null)]

end Condition

namespace Assignment

/-- The assignment that a document describes. -/
def ofDocument? (d : Json.Document) : Option Assignment := do
  let slots ← d.slots? ["name", "value"]
  let name ← Json.Document.slot slots "name" Json.Document.string? ""
  let value ← Json.Document.slot slots "value" Json.Document.string? ""
  return { name, value }

/-- The JSON form of an assignment. -/
def json (a : Assignment) : Json := .object [("name", .string a.name), ("value", .string a.value)]

/-- The assignments that a text describes. -/
def readList? (text : String) : Option (List Assignment) :=
  (Json.Document.read? text.toList).bind (Json.Document.list? ofDocument?)

end Assignment

namespace Logic

/-- The logic that a document names. -/
def ofDocument? (d : Json.Document) : Option Logic := do
  let name ← d.choice?
  if name = "and" then some .all else if name = "or" then some .any else none

/-- The name of a logic. -/
def name : Logic → String
  | .all => "and"
  | .any => "or"

end Logic

namespace Group

/-- The group that a document describes; it has to list conditions. -/
def ofDocument? (d : Json.Document) : Option Group := do
  let slots ← d.slots? ["conditions", "logic", "case_sensitive"]
  let conditions ← (Fields.get? slots "conditions").bind
    (Json.Document.list? Condition.ofDocument?)
  let logic ← Json.Document.slot slots "logic" Logic.ofDocument? .all
  let caseSensitive ← Json.Document.slot slots "case_sensitive" Json.Document.bool? false
  return { conditions, logic, caseSensitive }

/-- The JSON form of a group. -/
def json (g : Group) : Json :=
  .object
    [("conditions", .array (g.conditions.map Condition.json)), ("logic", .string g.logic.name),
     ("case_sensitive", .bool g.caseSensitive)]

/-- The group that a text describes. -/
def read? (text : String) : Option Group := (Json.Document.read? text.toList).bind ofDocument?

end Group

namespace Bundle

/-! ## Collections -/

/-- The items of a collection, a structure whose single part lists them. -/
def collection? {α : Type} (part : String) (read : Json.Document → Option α)
    (d : Json.Document) : Option (List α) := do
  let slots ← d.slots? [part]
  Json.Document.slot slots part (Json.Document.list? read) []

/-- The JSON form of a collection. -/
def collectionJson {α : Type} (part : String) (json : α → Json) (items : List α) : Json :=
  .object [(part, .array (items.map json))]

/-- The criteria in three slots. -/
def criteria? (slots : Fields Json.Document) (conditions logic caseSensitive : String) :
    Option Criteria := do
  return {
    conditions := ← Json.Document.slot slots conditions
      (collection? "conditions" Condition.ofDocument?) []
    logic := ← Json.Document.slot slots logic Json.Document.string? "and"
    caseSensitive := ← Json.Document.slot slots caseSensitive Json.Document.bool? false }

/-- Criteria as three members. -/
def criteriaJson (conditions logic caseSensitive : String) (c : Criteria) :
    List (String × Json) :=
  [(conditions, collectionJson "conditions" Condition.json c.conditions),
   (logic, .string c.logic), (caseSensitive, .bool c.caseSensitive)]

/-! ## Bundles -/

/-- The names of the parameters, in the order in which they are written. -/
def parameters : List String :=
  ["operation", "dataToAdd", "position", "readMode", "readRowIndex", "readFieldNames",
   "filterConditions", "conditionLogic", "filterCaseSensitive", "sortField", "sortOrder",
   "searchField", "searchValue", "caseSensitive", "limit", "offset", "updateMode", "rowIndex",
   "cellFieldName", "cellValue", "updateConditions", "updateConditionLogic",
   "updateCaseSensitive", "fieldsToUpdate", "deleteMode", "deleteRowIndex", "deleteConditions",
   "deleteConditionLogic", "deleteCaseSensitive", "uniqueFields", "statsField", "groupByField"]

/-- The bundle that a document describes. The bundle itself counts as a container around its
payload. -/
def ofDocument? (d : Json.Document) : Option Bundle := do
  let slots ← d.slots? parameters
  let fallback : Bundle := {}
  let text (place : String) (fallback : String) : Option String :=
    Json.Document.slot slots place Json.Document.string? fallback
  return {
    operation := ← text "operation" fallback.operation
    payload := ← Json.Document.slot slots "dataToAdd"
      (Json.Document.value? (Json.depthLimit - 1)) fallback.payload
    place := ← text "position" fallback.place
    readMode := ← text "readMode" fallback.readMode
    readRows := ← text "readRowIndex" fallback.readRows
    readFields := ← text "readFieldNames" fallback.readFields
    readCriteria := ← criteria? slots "filterConditions" "conditionLogic" "filterCaseSensitive"
    sortField := ← text "sortField" fallback.sortField
    sortOrder := ← text "sortOrder" fallback.sortOrder
    searchField := ← text "searchField" fallback.searchField
    searchTerm := ← text "searchValue" fallback.searchTerm
    searchCaseSensitive := ← Json.Document.slot slots "caseSensitive" Json.Document.bool?
      fallback.searchCaseSensitive
    limit := ← Json.Document.slot slots "limit" Json.Document.int64? fallback.limit
    offset := ← Json.Document.slot slots "offset" Json.Document.int64? fallback.offset
    updateMode := ← text "updateMode" fallback.updateMode
    updateRows := ← text "rowIndex" fallback.updateRows
    cellField := ← text "cellFieldName" fallback.cellField
    cellValue := ← text "cellValue" fallback.cellValue
    updateCriteria := ← criteria? slots "updateConditions" "updateConditionLogic"
      "updateCaseSensitive"
    assignments := ← Json.Document.slot slots "fieldsToUpdate"
      (collection? "fields" Assignment.ofDocument?) fallback.assignments
    deleteMode := ← text "deleteMode" fallback.deleteMode
    deleteRows := ← text "deleteRowIndex" fallback.deleteRows
    deleteCriteria := ← criteria? slots "deleteConditions" "deleteConditionLogic"
      "deleteCaseSensitive"
    uniqueFields := ← text "uniqueFields" fallback.uniqueFields
    statsField := ← text "statsField" fallback.statsField
    groupField := ← text "groupByField" fallback.groupField }

/-- The bundle that a text describes. -/
def read? (text : String) : Option Bundle := (Json.Document.read? text.toList).bind ofDocument?

/-- The members of a bundle's JSON form. -/
def members (b : Bundle) : List (String × Json) :=
  [("operation", .string b.operation), ("dataToAdd", b.payload), ("position", .string b.place),
   ("readMode", .string b.readMode), ("readRowIndex", .string b.readRows),
   ("readFieldNames", .string b.readFields)] ++
  criteriaJson "filterConditions" "conditionLogic" "filterCaseSensitive" b.readCriteria ++
  [("sortField", .string b.sortField), ("sortOrder", .string b.sortOrder),
   ("searchField", .string b.searchField), ("searchValue", .string b.searchTerm),
   ("caseSensitive", .bool b.searchCaseSensitive), ("limit", .integer b.limit.toInt),
   ("offset", .integer b.offset.toInt), ("updateMode", .string b.updateMode),
   ("rowIndex", .string b.updateRows), ("cellFieldName", .string b.cellField),
   ("cellValue", .string b.cellValue)] ++
  criteriaJson "updateConditions" "updateConditionLogic" "updateCaseSensitive"
    b.updateCriteria ++
  [("fieldsToUpdate", collectionJson "fields" Assignment.json b.assignments),
   ("deleteMode", .string b.deleteMode), ("deleteRowIndex", .string b.deleteRows)] ++
  criteriaJson "deleteConditions" "deleteConditionLogic" "deleteCaseSensitive"
    b.deleteCriteria ++
  [("uniqueFields", .string b.uniqueFields), ("statsField", .string b.statsField),
   ("groupByField", .string b.groupField)]

/-- The JSON form of a bundle. -/
def json (b : Bundle) : Json := .object b.members

end Bundle

end LooseRecords
