import LooseRecords.Json.Text
import LooseRecords.Value.Basic

/-!
# Values as JSON

Every value has a JSON form: dates become their ISO text, whole numbers below `2 ^ 53` integers,
and numbers that are not finite null. Every JSON value is a field value, with all numbers doubles.
-/

namespace LooseRecords

namespace Number

/-- The JSON form of a number. Zero loses its sign, being a whole number. -/
def json (n : Number) : Json :=
  match n with
  | .finite _ _ =>
    match n.toInt? with
    | some i => if i.natAbs < 2 * Rank.binade then .integer i else .double n
    | none => .double n
  | _ => .null

end Number

namespace Value

mutual

/-- The JSON form of a value. -/
def json : Value → Json
  | .null => .null
  | .bool b => .bool b
  | .number n => n.json
  | .string s => .string s
  | .date t => .string (String.ofList t.iso)
  | .array items => .array (itemsJson items)
  | .object fields => .object (fieldsJson fields)

/-- The JSON forms of items. -/
def itemsJson : List Value → List Json
  | [] => []
  | item :: items => json item :: itemsJson items

/-- The JSON forms of fields. -/
def fieldsJson : List (String × Value) → List (String × Json)
  | [] => []
  | (name, value) :: fields => (name, json value) :: fieldsJson fields

end

mutual

/-- The value of a JSON value. -/
def ofJson : Json → Value
  | .null => .null
  | .bool b => .bool b
  | .integer i => .number (Number.ofInt i)
  | .double n => .number n
  | .string s => .string s
  | .array items => .array (ofItems items)
  | .object members => .object (ofMembers members)

/-- The values of items. -/
def ofItems : List Json → List Value
  | [] => []
  | item :: items => ofJson item :: ofItems items

/-- The fields of members. -/
def ofMembers : List (String × Json) → List (String × Value)
  | [] => []
  | (name, member) :: members => (name, ofJson member) :: ofMembers members

end

/-- The compact JSON text of a value. -/
def jsonText (value : Value) : List Char := value.json.text

end Value

end LooseRecords
