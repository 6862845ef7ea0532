import LooseRecords.Record
import LooseRecords.Selection

/-!
# Pages and cells

Records by their position: a page of a record set, and selected rows with selected fields.
-/

namespace LooseRecords

namespace Query

/-- The position in a sequence that a bound means: negative bounds count from the end, and bounds
beyond either end mean that end. -/
def bound (length : Nat) (i : Int) : Nat :=
  if i < 0 then (length + i).toNat else Nat.min i.toNat length

/-- The records from `offset` on up to `offset + limit`. -/
def page (limit offset : Int) (records : RecordSet) : RecordSet :=
  let first := bound records.length offset
  let last := bound records.length (offset + limit)
  (records.take last).drop first

/-- The record with only the named fields, in the order of the names; fields that it lacks are
left out. -/
def restrict (names : List String) (record : Record) : Record :=
  .ofList (names.filterMap fun name => (record.get? name).map fun value => (name, value))

/-- The names that a list between commas names; blank ones are passed over. -/
def fieldNames (list : String) : List String :=
  ((Text.listed list.toList).filter fun name => !name.isEmpty).map String.ofList

/-- The selected records, with the listed fields if any are listed. -/
def cells (rows fields : String) (records : RecordSet) : RecordSet :=
  let names := fieldNames fields
  let selected := (Selection.positions rows records.length).filterMap fun i => records[i]?
  if names.isEmpty then selected else selected.map (restrict names)

end Query

end LooseRecords
