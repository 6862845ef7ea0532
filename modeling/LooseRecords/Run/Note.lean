import LooseRecords.Request.Basic
import LooseRecords.Run.Metrics
import LooseRecords.Text.Quoted

/-!
# Notes

What is noted down during a run: events, which observers receive, and lines of a log. An event has
a log line too, so a run's notes are a log as a whole.
-/

namespace LooseRecords

/-- What happens to a run. -/
inductive Event where
  | started (operation : Operation) (records : Nat)
  | finished (operation : Operation) (records : Nat) (metrics : Metrics)
  | failed (operation message : String)
  deriving DecidableEq, Repr

/-- The weight of a log line. -/
inductive Level where
  | debug
  | info
  | warn
  deriving DecidableEq, Repr

namespace Level

/-- The name of a level. -/
def name : Level → String
  | .debug => "DEBUG"
  | .info => "INFO"
  | .warn => "WARN"

end Level

/-- A line of a log. Times, counters and the texts of errors are left to events. -/
structure LogLine where
  level : Level
  message : String
  fields : List (String × String) := []
  deriving DecidableEq, Repr

namespace LogLine

/-- The name of a logic in a log. -/
def logicName : Logic → String
  | .all => "And"
  | .any => "Or"

/-- The name of a place in a log. -/
def placeName : Place → String
  | .atEnd => "Append"
  | .atStart => "Prepend"

/-- The name of a direction in a log. -/
def directionName : Direction → String
  | .ascending => "Asc"
  | .descending => "Desc"

/-- An optional text in a log. -/
def optionalText : Option String → String
  | some s => "Some(" ++ String.ofList (Text.quoted s.toList) ++ ")"
  | none => "None"

/-- The line of an event. -/
def ofEvent : Event → LogLine
  | .started operation records =>
    ⟨.debug, "run started",
      [("operation", operation.selector), ("input_records", toString records)]⟩
  | .finished operation records _ =>
    ⟨.info, "run finished",
      [("operation", operation.selector), ("output_records", toString records)]⟩
  | .failed operation _ => ⟨.warn, "run failed", [("operation", operation)]⟩

/-- The line of a request that is carried out. An update by conditions is noted only once it has
succeeded, with the number of records that it touched. -/
def ofRequest? (request : Request) (records : RecordSet) : Option LogLine :=
  match request with
  | .create _ place => some ⟨.debug, "create", [("position", placeName place)]⟩
  | .filter group =>
    some ⟨.debug, "read: filter",
      [("conditions", toString group.conditions.length), ("logic", logicName group.logic)]⟩
  | .sort field direction =>
    some ⟨.debug, "read: sort", [("field", field), ("order", directionName direction)]⟩
  | .search field term caseSensitive =>
    some ⟨.debug, "read: search",
      [("field", field), ("term", term), ("case_sensitive", toString caseSensitive)]⟩
  | .page limit offset =>
    some ⟨.debug, "read: limit", [("limit", toString limit), ("offset", toString offset)]⟩
  | .cells rows fields =>
    some ⟨.debug, "read: cell", [("row_index", rows), ("field_names", fields)]⟩
  | .passThrough => some ⟨.debug, "read: unknown mode, passing records through", []⟩
  | .updateMatching group assignments =>
    match Edit.updateMatching group assignments records with
    | .ok (updated, _) =>
      some ⟨.debug, "update: condition",
        [("updated", toString updated), ("fields", toString assignments.length)]⟩
    | .error _ => none
  | .updateAt rows field value =>
    some ⟨.debug, "update: cell",
      [("updated", toString (Edit.updateAt rows field value records).1), ("field", field)]⟩
  | .deleteMatching group =>
    some ⟨.debug, "delete: condition", [("conditions", toString group.conditions.length)]⟩
  | .deleteAt rows => some ⟨.debug, "delete: row index", [("row_index", rows)]⟩
  | .removeDuplicates fields => some ⟨.debug, "remove duplicates", [("unique_fields", fields)]⟩
  | .statistics field groupField =>
    some ⟨.debug, "statistics", [("field", field), ("group_by", optionalText groupField)]⟩

end LogLine

/-- Something noted down during a run. -/
inductive Note where
  | event (e : Event)
  | line (l : LogLine)

namespace Note

/-- The event of a note, if it is one. -/
def event? : Note → Option Event
  | .event e => some e
  | .line _ => none

/-- The log line of a note. -/
def logLine : Note → LogLine
  | .event e => .ofEvent e
  | .line l => l

end Note

end LooseRecords
