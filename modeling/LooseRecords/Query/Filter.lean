import LooseRecords.Condition.Group

/-!
# Filters and searches

The records of a set that meet a group of conditions, and those in which a term occurs.
-/

namespace LooseRecords

namespace Query

/-- The records that meet a group. Fields that no record has are compared as missing. -/
def filter (group : Group) (records : RecordSet) : RecordSet := records.filter group.isMet

/-- The term occurs in the display text of a value. -/
def shows (caseSensitive : Bool) (term : String) (value : Option Value) : Bool :=
  Text.occursIn (Text.fold caseSensitive term.toList)
    (Text.fold caseSensitive (Value.displayField value))

/-- The records in which a term occurs: in the named field, or in any value if no field is
named. -/
def search (field term : String) (caseSensitive : Bool) (records : RecordSet) : RecordSet :=
  records.filter fun record =>
    if field.isEmpty then record.values.any fun value => shows caseSensitive term (some value)
    else shows caseSensitive term (record.get? field)

end Query

end LooseRecords
