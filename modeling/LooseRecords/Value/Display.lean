import LooseRecords.Number.Display
import LooseRecords.Number.Reading
import LooseRecords.Value.Basic

/-!
# Display text and numeric reading

How conditions see a value: as its display text, or as the number it stands for.
-/

namespace LooseRecords

namespace Value

mutual

/-- The display text of a value. An array shows its items between commas, an object only that it
is one. -/
def display : Value → List Char
  | .null => "null".toList
  | .bool true => "true".toList
  | .bool false => "false".toList
  | .number n => n.display
  | .string s => s.toList
  | .date t => t.iso
  | .array items => displayItems items
  | .object _ => "[object Object]".toList

/-- The display texts of items, with commas between them; nulls show nothing. -/
def displayItems : List Value → List Char
  | [] => []
  | [item] => if item.isNull then [] else display item
  | item :: items => (if item.isNull then [] else display item) ++ ',' :: displayItems items

end

/-- The display text of an item; a null shows nothing. -/
def displayItem (item : Value) : List Char := if item.isNull then [] else display item

/-- The display text of a field, which says so if it is missing. -/
def displayField : Option Value → List Char
  | none => "undefined".toList
  | some value => display value

/-- The display texts of fields with a separator between them; missing and null ones show
nothing. -/
def join (separator : List Char) (values : List (Option Value)) : List Char :=
  separator.intercalate (values.map fun value => (value.map displayItem).getD [])

/-- The number that a field stands for: that of its display text for strings and arrays,
milliseconds for dates, and none for missing fields and objects. -/
def asNumber : Option Value → Number
  | none => .nan
  | some .null => .zero
  | some (.bool b) => if b then .ofNat 1 else .zero
  | some (.number n) => n
  | some (.string s) => Number.read s.toList
  | some (.date t) => .ofInt t.millis
  | some (.array items) => Number.read (displayItems items)
  | some (.object _) => .nan

end Value

end LooseRecords
