import LooseRecords.Request.Bundle
import LooseRecords.Run.Note

/-!
# Runs

Bundles carried out one after the other. What a run returns depends on its records and its bundle
alone; the counters and the notes only go along.
-/

namespace LooseRecords

namespace Bundle

/-- Carry out a bundle on a record set. -/
def perform (bundle : Bundle) (records : RecordSet) : Except (Stop RunFailure) RecordSet :=
  match bundle.request with
  | .error failure => .error (.failed ⟨bundle.operation, failure⟩)
  | .ok request =>
    (request.perform records).mapError (.map fun failure => ⟨request.operation.selector, failure⟩)

end Bundle

/-- What comes of a run: the records that it returns or why it returns none, the counters after it,
and what was noted down in order. -/
structure Run where
  result : Except (Stop RunFailure) RecordSet
  metrics : Metrics
  notes : List Note

namespace Run

/-- The events of a run. -/
def events (r : Run) : List Event := r.notes.filterMap Note.event?

/-- The log of a run. -/
def log (r : Run) : List LogLine := r.notes.map Note.logLine

/-- The run of a request, with the counters before it. `elapsed` is the time that it takes, in
nanoseconds. A panic is neither counted nor noted. -/
def ofRequest (metrics : Metrics) (elapsed : Nat) (request : Request) (records : RecordSet) : Run :=
  let operation := request.operation
  let started := Note.event (.started operation records.length)
  let line := (LogLine.ofRequest? request records).toList.map Note.line
  let begun := metrics.begin records.length
  match request.perform records with
  | .ok out =>
    let metrics := begun.finish out.length elapsed
    { result := .ok out
      metrics
      notes := started :: line ++ [.event (.finished operation out.length metrics)] }
  | .error .panicked =>
    { result := .error .panicked
      metrics := begun
      notes := started :: line }
  | .error (.failed failure) =>
    { result := .error (.failed ⟨operation.selector, failure⟩)
      metrics := begun.fail elapsed
      notes := started :: line ++ [.event (.failed operation.selector failure.message)] }

/-- The run of a bundle, with the counters before it. A selector that no operation has is a
failure without a start. -/
def ofBundle (metrics : Metrics) (elapsed : Nat) (bundle : Bundle) (records : RecordSet) : Run :=
  match bundle.request with
  | .ok request => ofRequest metrics elapsed request records
  | .error failure =>
    { result := .error (.failed ⟨bundle.operation, failure⟩)
      metrics := metrics.fail 0
      notes := [.event (.failed bundle.operation failure.message)] }

end Run

end LooseRecords
