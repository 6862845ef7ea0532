import LooseRecords.Load.Csv
import LooseRecords.Load.Json
import LooseRecords.Run.Note

/-!
# Records from files

Records from a file of either format. The extension of the file's name tells the format unless the
caller does. The file's contents are given as bytes, none standing for a file that does not exist.
-/

namespace LooseRecords

/-- A format of files. -/
inductive Format where
  | csv
  | json
  deriving DecidableEq, Repr

namespace Format

/-- The format that an extension means; ASCII letters count in either case. -/
def ofExtension? (extension : String) : Option Format :=
  let low := extension.toList.map Char.toLower
  if low = "csv".toList then some .csv
  else if low = "json".toList || low = "ndjson".toList then some .json
  else none

/-- The name of a format in a log. -/
def name : Format → String
  | .csv => "Csv"
  | .json => "Json"

end Format

namespace Load

/-- The last part of a path that names something. Slashes at the end and parts that are a single
point do not count. -/
def fileName (path : List Char) : List Char :=
  let parts := (path.splitOn '/').filter fun part => !part.isEmpty
  match (parts.reverse.dropWhile fun part => part == ['.']) with
  | last :: _ => last
  | [] => []

/-- The extension of a path: what follows the last point of the file's name, if something stands
in front of that point. -/
def extension? (path : String) : Option String :=
  let name := fileName path.toList
  if name = ['.', '.'] then none
  else
    let after := name.reverse.takeWhile (· != '.')
    if after.length + 1 < name.length then some (String.ofList after.reverse) else none

/-- The format of a file: the one that the caller gives, or else that of the file's extension. -/
def formatOf (path : String) (given : Option Format) : Except LoadFailure Format :=
  match given, extension? path with
  | some format, _ => .ok format
  | none, none => .error (.noExtension path)
  | none, some extension =>
    match Format.ofExtension? extension with
    | none => .error (.unknownExtension extension path)
    | some format => .ok format

/-- The records of a file's contents. -/
def contents (format : Format) (typed : Bool) (bytes : Option (List UInt8)) :
    Except LoadFailure RecordSet :=
  match format, bytes with
  | .csv, none => .error .missingTable
  | .csv, some bytes => Csv.load typed false bytes
  | .json, none => .error .missingFile
  | .json, some bytes =>
    match String.fromUTF8? ⟨bytes.toArray⟩ with
    | none => .error .invalidFile
    | some text => json text

/-- The log line of a file that was read, or that could not be. -/
def logLine (format : Format) : Except LoadFailure RecordSet → LogLine
  | .ok records =>
    ⟨.info, "loaded records", [("format", format.name), ("records", toString records.length)]⟩
  | .error _ => ⟨.warn, "failed to load records", [("format", format.name)]⟩

/-- The records of a file and what is logged. A file whose format is not known is not read, and
nothing is logged. -/
def file (path : String) (given : Option Format) (typed : Bool) (bytes : Option (List UInt8)) :
    Except LoadFailure RecordSet × List LogLine :=
  match formatOf path given with
  | .error failure => (.error failure, [])
  | .ok format =>
    let result := contents format typed bytes
    (result, [logLine format result])

end Load

end LooseRecords
