import LooseRecords.Request.Basic

/-!
# Parameter bundles

A host passes the parameters of all operations in one flat bundle, of which an operation uses its
own. `Bundle.request` picks them out.
-/

namespace LooseRecords

/-- Conditions as a bundle holds them: the selector of their logic is not resolved yet. -/
structure Criteria where
  conditions : List Condition := []
  logic : String := "and"
  caseSensitive : Bool := false
  deriving DecidableEq, Repr

namespace Criteria

/-- The group of conditions that criteria stand for. -/
def group (c : Criteria) : Group where
  conditions := c.conditions
  logic := .ofSelector c.logic
  caseSensitive := c.caseSensitive

end Criteria

/-- The parameters of all operations, with the values that they take if they are not given. -/
structure Bundle where
  /-- The selector of the operation. -/
  operation : String := "read"
  /-- What a creation adds. -/
  payload : Json := .string "\x7b\n  \"field1\": \"value1\"\n\x7d"
  /-- The selector of the place at which a creation adds it. -/
  place : String := "append"
  /-- The way of reading. -/
  readMode : String := "filter"
  /-- The rows of a reading of cells. -/
  readRows : String := "0"
  /-- The fields of a reading of cells. -/
  readFields : String := ""
  /-- The conditions of a filter. -/
  readCriteria : Criteria := {}
  /-- The field to sort by. -/
  sortField : String := ""
  /-- The selector of the direction of sorting. -/
  sortOrder : String := "asc"
  /-- The field to search in. -/
  searchField : String := ""
  /-- The term to search for. -/
  searchTerm : String := ""
  /-- Whether a search tells upper from lower case. -/
  searchCaseSensitive : Bool := false
  /-- The length of a page. -/
  limit : Int64 := 10
  /-- The position at which a page starts. -/
  offset : Int64 := 0
  /-- The way of updating. -/
  updateMode : String := "condition"
  /-- The rows of an update of cells. -/
  updateRows : String := "0"
  /-- The field of an update of cells. -/
  cellField : String := ""
  /-- The value of an update of cells. -/
  cellValue : String := ""
  /-- The conditions of an update. -/
  updateCriteria : Criteria := {}
  /-- The assignments of an update. -/
  assignments : List Assignment := []
  /-- The way of deleting. -/
  deleteMode : String := "condition"
  /-- The rows of a deletion. -/
  deleteRows : String := "0"
  /-- The conditions of a deletion. -/
  deleteCriteria : Criteria := {}
  /-- The fields that tell records apart. -/
  uniqueFields : String := ""
  /-- The field that statistics summarize. -/
  statsField : String := ""
  /-- The field that statistics group by. -/
  groupField : String := ""
  deriving DecidableEq

namespace Bundle

/-- The request of a reading. -/
def readRequest (b : Bundle) : Request :=
  if b.readMode = "filter" then .filter b.readCriteria.group
  else if b.readMode = "sort" then .sort b.sortField (.ofSelector b.sortOrder)
  else if b.readMode = "search" then .search b.searchField b.searchTerm b.searchCaseSensitive
  else if b.readMode = "limit" then .page b.limit.toInt b.offset.toInt
  else if b.readMode = "cell" then .cells b.readRows b.readFields
  else .passThrough

/-- The request of an update: of cells, or by conditions in any other mode. -/
def updateRequest (b : Bundle) : Request :=
  if b.updateMode = "cell" then .updateAt b.updateRows b.cellField b.cellValue
  else .updateMatching b.updateCriteria.group b.assignments

/-- The request of a deletion: of rows, or by conditions in any other mode. -/
def deleteRequest (b : Bundle) : Request :=
  if b.deleteMode = "rowIndex" then .deleteAt b.deleteRows
  else .deleteMatching b.deleteCriteria.group

/-- The request that a bundle stands for. Only an unknown operation is refused; unknown modes and
selectors have a meaning each. -/
def request (b : Bundle) : Except Failure Request :=
  (Operation.ofSelector b.operation).map fun
    | .create => .create b.payload (.ofSelector b.place)
    | .read => b.readRequest
    | .update => b.updateRequest
    | .delete => b.deleteRequest
    | .removeDuplicates => .removeDuplicates b.uniqueFields
    | .statistics =>
      .statistics b.statsField (if b.groupField.isEmpty then none else some b.groupField)

/-- All parameters have the values that they take if they are not given. -/
def isDefault (b : Bundle) : Bool := b == {}

end Bundle

end LooseRecords
