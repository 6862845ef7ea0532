import LooseRecords.Record
import LooseRecords.Summary.Aggregate
import LooseRecords.Value.Display

/-!
# Statistics

A field of a record set, summarized: as a whole, or for each value of another field.
-/

namespace LooseRecords

namespace Summary

/-- The number that a record contributes; what is no number counts as zero. -/
def contribution (field : String) (record : Record) : Number :=
  let n := Value.asNumber (record.get? field)
  if n.isNan then .zero else n

/-- The name of the group that a record belongs to; all vacant fields are one group. -/
def label (field : String) (record : Record) : String :=
  let value := record.get? field
  if Value.isVacant value then "undefined" else String.ofList (Value.displayField value)

/-- The fields of a summary. -/
def fields (a : Aggregate) : List (String × Value) :=
  [("count", .number (.ofNat a.count)), ("sum", .number a.sum), ("avg", .number a.mean),
   ("min", .number a.least), ("max", .number a.greatest)]

/-- The labels of the groups in order of first appearance, each with its numbers in order. -/
def groups (field groupField : String) (records : RecordSet) : Fields (List Number) :=
  records.foldl (fun groups record =>
    let name := label groupField record
    let numbers := (Fields.get? groups name).getD []
    Fields.insert groups name (numbers ++ [contribution field record])) []

/-- The summary of a field: one record, or one for each group if a field to group by is named. -/
def statistics (field : String) (groupField : Option String) (records : RecordSet) : RecordSet :=
  match groupField.filter (!·.isEmpty) with
  | none => [⟨fields (Aggregate.ofList (records.map (contribution field)))⟩]
  | some groupField =>
    (groups field groupField records).map fun (name, numbers) =>
      ⟨("group", .string name) :: fields (Aggregate.ofList numbers)⟩

end Summary

end LooseRecords
