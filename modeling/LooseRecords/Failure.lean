/-!
# Failures

What can go wrong, as causes. The wording of a cause is its `message`.
-/

namespace LooseRecords

/-- Why an operation on records fails. -/
inductive Failure where
  /-- The payload of a creation is neither an object nor an array of objects. -/
  | unreadablePayload
  /-- A condition asks for a field that no record has. -/
  | missingField (name : String)
  /-- No operation has the selector. -/
  | unsupportedOperation (selector : String)
  deriving DecidableEq, Repr

namespace Failure

/-- The wording of a failure. -/
def message : Failure → String
  | .unreadablePayload =>
    "Unable to parse data to add. Please ensure JSON format is correct."
  | .missingField name =>
    "Condition field \"" ++ name ++ "\" does not exist in any of the input items. " ++
      "Please check your condition field names."
  | .unsupportedOperation selector => "Unsupported operation: " ++ selector

end Failure

/-- A failure together with the selector of the operation in which it arose. -/
structure RunFailure where
  operation : String
  failure : Failure
  deriving DecidableEq, Repr

namespace RunFailure

/-- The wording of a failure, with the operation in front of it. -/
def message (f : RunFailure) : String := f.operation ++ ": " ++ f.failure.message

end RunFailure

/-- Why nothing is returned: a failure, or a sorting that panicked over an inconsistent order. -/
inductive Stop (φ : Type) where
  | failed (failure : φ)
  | panicked
  deriving DecidableEq, Repr

namespace Stop

/-- The same stop, with another account of a failure. -/
def map {φ ψ : Type} (f : φ → ψ) : Stop φ → Stop ψ
  | failed failure => failed (f failure)
  | panicked => panicked

end Stop

/-- Why records cannot be loaded. -/
inductive LoadFailure where
  /-- A JSON document is neither an object nor an array. -/
  | notRecords
  /-- A line, counted from one, is not a JSON document. -/
  | badLine (number : Nat)
  /-- A row, counted from one, is not a JSON object. -/
  | notObject (row : Nat)
  /-- The name of a file has no extension to tell its format. -/
  | noExtension (name : String)
  /-- The extension of a file belongs to no format. -/
  | unknownExtension (extension name : String)
  /-- There is no such JSON file. -/
  | missingFile
  /-- A JSON file is not UTF-8. -/
  | invalidFile
  /-- There is no such CSV file. -/
  | missingTable
  /-- A field of a CSV row is not UTF-8. -/
  | invalidCell
  /-- A CSV row has another number of fields than the header. -/
  | unequalLengths (expected found : Nat)
  deriving DecidableEq, Repr

namespace LoadFailure

/-- The wording of a failure that lies in the records themselves; failures to read a file have
none of their own. -/
def message? : LoadFailure → Option String
  | .notRecords => some (malformed "json must be an object, an array of objects, or NDJSON")
  | .badLine number => some (malformed ("invalid ndjson at line " ++ toString number))
  | .notObject row => some (malformed ("row " ++ toString row ++ " is not a json object"))
  | .noExtension name =>
    some (malformed ("cannot infer format: path has no extension (" ++ name ++ ")"))
  | .unknownExtension extension name =>
    some (malformed ("cannot infer format from extension '" ++ extension ++ "' for path (" ++
      name ++ ")"))
  | .missingFile | .invalidFile | .missingTable | .invalidCell | .unequalLengths _ _ => none
where
  /-- A fault of the records, named as one. -/
  malformed (fault : String) : String := "malformed records: " ++ fault

end LoadFailure

end LooseRecords
