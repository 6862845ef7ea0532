import LooseRecords.Value.Json

/-!
# Records

A record is one row of loosely typed data: named values in order. A record set is a sequence of
records, which need not have the same fields.
-/

namespace LooseRecords

/-- One row of data. -/
structure Record where
  fields : Fields Value
  deriving DecidableEq, Inhabited

namespace Record

/-- The value of a field, none if the record lacks it. -/
def get? (r : Record) (name : String) : Option Value := Fields.get? r.fields name

/-- The record has a field, be it null. -/
def contains (r : Record) (name : String) : Bool := Fields.contains r.fields name

/-- Assign a field: in place if the record has it, at the end if not. -/
def insert (r : Record) (name : String) (value : Value) : Record :=
  ⟨Fields.insert r.fields name value⟩

/-- The record whose fields are assigned in order. -/
def ofList (entries : List (String × Value)) : Record := ⟨Fields.ofList entries⟩

/-- The names of the fields in order. -/
def names (r : Record) : List String := Fields.names r.fields

/-- The values of the fields in order. -/
def values (r : Record) : List Value := r.fields.map Prod.snd

/-- The number of fields. -/
def size (r : Record) : Nat := r.fields.length

/-- The JSON object of a record. -/
def json (r : Record) : Json := (Value.object r.fields).json

/-- The JSON text of a record, which tells records apart up to their JSON forms. -/
def jsonText (r : Record) : List Char := r.json.text

/-- The record that a JSON object is. -/
def ofJson? (j : Json) : Option Record :=
  match Value.ofJson j with
  | .object fields => some ⟨fields⟩
  | _ => none

end Record

/-- Records in sequence. -/
abbrev RecordSet := List Record

namespace RecordSet

/-- Some record has the field. -/
def hasName (records : RecordSet) (name : String) : Bool := records.any (·.contains name)

/-- The JSON array of a record set. -/
def json (records : RecordSet) : Json := .array (records.map Record.json)

/-- The record set that a JSON array of objects is. -/
def ofJson? : Json → Option RecordSet
  | .array items => items.mapM Record.ofJson?
  | _ => none

/-- The JSON text of a record set. -/
def jsonText (records : RecordSet) : List Char := (json records).text

end RecordSet

end LooseRecords
