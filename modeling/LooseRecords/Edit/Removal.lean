import LooseRecords.Condition.Group
import LooseRecords.Selection
import LooseRecords.Value.Display

/-!
# Removal

Record sets without the records that meet conditions, that stand at selected positions, or that
repeat an earlier one.
-/

namespace LooseRecords

namespace Edit

/-- Remove the records that meet a group. An empty group removes none; otherwise the fields of its
conditions are checked first. -/
def deleteMatching (group : Group) (records : RecordSet) : Except Failure RecordSet :=
  if group.isEmpty then .ok records
  else do
    group.check records
    return records.filter fun record => !group.isMet record

/-- Remove the selected records. -/
def deleteAt (rows : String) (records : RecordSet) : RecordSet :=
  let positions := Selection.positions rows records.length
  (records.zipIdx.filter fun (_, i) => !positions.contains i).map Prod.fst

/-- The first item for each key, in order. The keys in `seen` count as met before. -/
def firsts {α κ : Type} [BEq κ] (key : α → κ) (seen : List κ) : List α → List α
  | [] => []
  | a :: items =>
    if seen.contains (key a) then firsts key seen items
    else a :: firsts key (key a :: seen) items

/-- What tells records apart: the listed fields, joined by bars, or the whole record if the list is
empty. -/
def distinctKey (fields : String) (record : Record) : List Char :=
  if fields.isEmpty then record.jsonText
  else Value.join ['|'] ((Text.listed fields.toList).map fun name =>
    record.get? (String.ofList name))

/-- Keep the first record for each key. -/
def removeDuplicates (fields : String) (records : RecordSet) : RecordSet :=
  firsts (distinctKey fields) [] records

end Edit

end LooseRecords
