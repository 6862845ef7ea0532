import LooseRecords.Condition.Group
import LooseRecords.Selection
import LooseRecords.Value.Written

/-!
# Assignment

Fields of records set to written values, for the records that meet conditions or stand at selected
positions. Both forms also say how many records they touched.
-/

namespace LooseRecords

/-- A field and the written value that it is set to. -/
structure Assignment where
  name : String := ""
  value : String := ""
  deriving DecidableEq, Repr

namespace Edit

/-- The record after the assignments, made in order. -/
def assign (assignments : List Assignment) (record : Record) : Record :=
  assignments.foldl (fun record a => record.insert a.name (Value.ofWritten a.value)) record

/-- Assign fields in every record that meets the group. The fields of its conditions are checked
before any record is changed. -/
def updateMatching (group : Group) (assignments : List Assignment) (records : RecordSet) :
    Except Failure (Nat × RecordSet) := do
  group.check records
  let updated := records.map fun record =>
    if group.isMet record then assign assignments record else record
  return (records.countP group.isMet, updated)

/-- The list with a function applied at the given positions. -/
def modifyAt {α : Type} (f : α → α) (positions : List Nat) (items : List α) : List α :=
  positions.foldl (fun items i => items.modify i f) items

/-- Assign a field in the selected records. -/
def updateAt (rows field value : String) (records : RecordSet) : Nat × RecordSet :=
  let positions := Selection.positions rows records.length
  (positions.length, modifyAt (·.insert field (Value.ofWritten value)) positions records)

end Edit

end LooseRecords
