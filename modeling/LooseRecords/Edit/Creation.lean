import LooseRecords.Failure
import LooseRecords.Json.Document
import LooseRecords.Record

/-!
# Creation

New records from a JSON payload, in front of or behind those that are there.
-/

namespace LooseRecords

/-- Where new records go. -/
inductive Place where
  | atEnd
  | atStart
  deriving DecidableEq, Repr

namespace Place

/-- `append` puts records at the end, and any other selector at the start. -/
def ofSelector (selector : String) : Place := if selector = "append" then .atEnd else .atStart

end Place

namespace Edit

/-- What a payload contains: a text is read as JSON, once; an object with a member `json` stands
for that member. -/
def unwrap (payload : Json) : Json :=
  match payload with
  | .string text => (Json.read? text.toList).getD payload
  | .object members => (Fields.get? members "json").getD payload
  | _ => payload

/-- The records that a payload describes: one for an object, one for each item of an array of
objects. -/
def payloadRecords (payload : Json) : Except Failure RecordSet :=
  let content := unwrap payload
  match (Record.ofJson? content).map ([·]) <|> RecordSet.ofJson? content with
  | some records => .ok records
  | none => .error .unreadablePayload

/-- The record set with the payload's records in it. -/
def create (payload : Json) (place : Place) (records : RecordSet) : Except Failure RecordSet := do
  let new ← payloadRecords payload
  match place with
  | .atEnd => return records ++ new
  | .atStart => return new ++ records

end Edit

end LooseRecords
