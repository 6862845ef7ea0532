import LooseRecords.Failure
import LooseRecords.Json.Document
import LooseRecords.Record
import LooseRecords.Text.Blank

/-!
# Records from JSON

Records from a JSON text: an array of objects, a single object, or a sequence of lines that hold
an object each. Values keep the types that JSON gives them.
-/

namespace LooseRecords

namespace Load

/-- The records that JSON values are; rows are counted from `row`. -/
def rows (row : Nat) : List Json → Except LoadFailure RecordSet
  | [] => .ok []
  | value :: values =>
    match Record.ofJson? value with
    | none => .error (.notObject row)
    | some record => (rows (row + 1) values).map (record :: ·)

/-- The values of the lines that are not blank; lines are counted from `number`. -/
def lineValues (number : Nat) : List (List Char) → Except LoadFailure (List Json)
  | [] => .ok []
  | line :: lines =>
    let line := Text.trim line
    if line.isEmpty then lineValues (number + 1) lines
    else match Json.read? line with
      | none => .error (.badLine number)
      | some value => (lineValues (number + 1) lines).map (value :: ·)

/-- The records of a JSON text. A text that is one document is read as that, and any other text
line by line, counted from its first line that is not blank. -/
def json (text : String) : Except LoadFailure RecordSet :=
  let text := Text.trim text.toList
  if text.isEmpty then .ok []
  else match Json.read? text with
    | some (.array items) => rows 1 items
    | some (.object members) => rows 1 [.object members]
    | some _ => .error .notRecords
    | none => do rows 1 (← lineValues 1 (text.splitOn '\n'))

end Load

end LooseRecords
