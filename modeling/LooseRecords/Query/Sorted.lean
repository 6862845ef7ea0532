import LooseRecords.Record
import LooseRecords.Sorting.Drift
import LooseRecords.Text.Collation
import LooseRecords.Value.Display

/-!
# Sorted records

Records in the order of a field: two numbers by their size, all else by its display text. Records
that the order does not tell apart stay as they stood. Numbers and texts side by side can go round
in a circle, and then the sorting need not have a result.
-/

namespace LooseRecords

/-- A direction of sorting. -/
inductive Direction where
  | ascending
  | descending
  deriving DecidableEq, Repr

namespace Direction

/-- `asc` sorts upwards, and any other selector downwards. -/
def ofSelector (selector : String) : Direction :=
  if selector = "asc" then .ascending else .descending

end Direction

namespace Query

/-- The order of two fields. Numbers that are not ordered count as equal, and a missing field
counts as its display text. -/
def fieldOrder (a b : Option Value) : Ordering :=
  match a, b with
  | some (.number x), some (.number y) => (x.compare? y).getD .eq
  | _, _ => Text.collate (Value.displayField a) (Value.displayField b)

/-- The order of two records by a field, in a direction. -/
def recordOrder (field : String) (direction : Direction) (a b : Record) : Ordering :=
  let order := fieldOrder (a.get? field) (b.get? field)
  match direction with
  | .ascending => order
  | .descending => order.swap

/-- The records in the order of a field, if the sorting has a result. -/
def sort (field : String) (direction : Direction) (records : RecordSet) : Option RecordSet :=
  Sorting.sort (fun a b => recordOrder field direction a b == .lt) records

end Query

end LooseRecords
