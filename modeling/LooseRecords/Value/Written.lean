import LooseRecords.Json.Document
import LooseRecords.Value.Json
import LooseRecords.Text.Blank

/-!
# Typed values of written ones

A value that is assigned as text is stored with the type that the text suggests: null, a boolean,
a number, a date, or a JSON array or object. Any other text is stored as it is.
-/

namespace LooseRecords

namespace Value

/-- The number that a plain decimal text is. -/
def plainNumber? (text : List Char) : Option Number :=
  ((Numeral.ofChars? text).filter Numeral.isPlain).map Numeral.number

/-- The array or object that a JSON text is. -/
def container? (text : List Char) : Option Value :=
  match Json.read? text with
  | some (.array items) => some (ofJson (.array items))
  | some (.object members) => some (ofJson (.object members))
  | _ => none

/-- The value of a text without blanks around it, if the text suggests a type. -/
def typed? (text : List Char) : Option Value :=
  if text = "null".toList then some .null
  else if text = "true".toList then some (.bool true)
  else if text = "false".toList then some (.bool false)
  else match plainNumber? text with
    | some n => some (.number n)
    | none =>
      match Instant.readIso? text with
      | some t => some (.date t)
      | none => container? text

/-- The value under which an assigned text is stored. Blanks around a text do not hinder its
reading, but a text without a type keeps them. -/
def ofWritten (raw : String) : Value := (typed? (Text.trim raw.toList)).getD (.string raw)

end Value

end LooseRecords
