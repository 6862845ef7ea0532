import LooseRecords.Failure
import LooseRecords.Record
import LooseRecords.Value.Written

/-!
# Records from CSV

Records from a CSV text with a header. `Csv.rows` takes the bytes of a text apart into rows of
fields; `Csv.load` names the fields of each row by the header.
-/

namespace LooseRecords

namespace Csv

/-- The byte of an ASCII character. -/
def byte (c : Char) : UInt8 := c.toNat.toUInt8

/-! ## Rows -/

/-- Where in a row the next byte stands. -/
inductive Place where
  /-- In front of a row; line ends here are empty lines. -/
  | rowStart
  /-- In front of a field. -/
  | fieldStart
  /-- In a field that is not quoted, or behind its closing quote. -/
  | field
  /-- Between quotes. -/
  | quoted
  /-- Behind a quote between quotes: it closes the field unless another one follows. -/
  | quote
  deriving DecidableEq, Repr

/-- A reading under way. All lists hold the latest first. -/
structure Reading where
  place : Place
  /-- The bytes of the field that is being read. -/
  field : List UInt8
  /-- The fields of the row that is being read. -/
  fields : List (List UInt8)
  /-- The rows that are complete. -/
  rows : List (List (List UInt8))

namespace Reading

/-- The reading with its field complete. -/
def endField (r : Reading) : Reading :=
  { r with place := .fieldStart, field := [], fields := r.field.reverse :: r.fields }

/-- The reading with its row complete. -/
def endRow (r : Reading) : Reading :=
  { place := .rowStart, field := [], fields := []
    rows := (r.field.reverse :: r.fields).reverse :: r.rows }

/-- The reading with one more byte in its field. -/
def push (r : Reading) (b : UInt8) : Reading := { r with place := .field, field := b :: r.field }

/-- A byte that ends a line. -/
def isLineEnd (b : UInt8) : Bool := b == 10 || b == 13

/-- A byte of a field that is not between quotes. -/
def stepBare (r : Reading) (b : UInt8) : Reading :=
  if b == byte ',' then r.endField else if isLineEnd b then r.endRow else r.push b

/-- A byte in front of a field. -/
def stepStart (r : Reading) (b : UInt8) : Reading :=
  if b == byte '"' then { r with place := .quoted } else r.stepBare b

/-- The reading after one more byte. -/
def step (r : Reading) (b : UInt8) : Reading :=
  match r.place with
  | .rowStart => if isLineEnd b then r else r.stepStart b
  | .fieldStart => r.stepStart b
  | .field => r.stepBare b
  | .quoted =>
    if b == byte '"' then { r with place := .quote } else { r with field := b :: r.field }
  | .quote =>
    if b == byte '"' then { r with place := .quoted, field := b :: r.field } else r.stepBare b

/-- The rows of a reading at the end of the text. A row that is not ended by a line end counts. -/
def finish (r : Reading) : List (List (List UInt8)) :=
  match r.place with
  | .rowStart => r.rows.reverse
  | _ => r.endRow.rows.reverse

end Reading

/-- The bytes without a byte order mark in front. -/
def withoutMark : List UInt8 → List UInt8
  | 0xEF :: 0xBB :: 0xBF :: rest => rest
  | bytes => bytes

/-- The rows of a text. -/
def rows (bytes : List UInt8) : List (List (List UInt8)) :=
  ((withoutMark bytes).foldl Reading.step ⟨.rowStart, [], [], []⟩).finish

/-! ## Records -/

/-- The text of a field. -/
def cell (bytes : List UInt8) : Except LoadFailure String :=
  match String.fromUTF8? ⟨bytes.toArray⟩ with
  | some s => .ok s
  | none => .error .invalidCell

/-- The texts of a row. A row of another length than the header is a failure if rows are strict. -/
def cells (strict : Bool) (width : Nat) (row : List (List UInt8)) :
    Except LoadFailure (List String) :=
  if strict && row.length != width then .error (.unequalLengths width row.length)
  else row.mapM cell

/-- The record of a row: cells named by the header as far as both go. -/
def record (typed : Bool) (header row : List String) : Record :=
  .ofList ((header.zip row).map fun (name, raw) =>
    (name, if typed then Value.ofWritten raw else .string raw))

/-- The records of a header and the rows under it. -/
def table (typed : Bool) (header : List String) (rows : List (List String)) : RecordSet :=
  rows.map (record typed header)

/-- The records of a text with a header. Without any row there is no record either. -/
def load (typed strict : Bool) (bytes : List UInt8) : Except LoadFailure RecordSet :=
  match rows bytes with
  | [] => .ok []
  | first :: rest => do
    let header ← first.mapM cell
    let rows ← rest.mapM (cells strict first.length)
    return table typed header rows

end Csv

end LooseRecords
