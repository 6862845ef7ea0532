import LooseRecords.Proofs.Request.Failing
import Mathlib

/-!
# Sessions

Bundles carried out one after the other on the same counters. `Run.session_reported` says what
each of them reports, and that the counters are at any time a tally of the events so far.
-/

namespace LooseRecords

namespace Event

/-- A run started. -/
def isStart : Event → Bool
  | .started _ _ => true
  | .finished _ _ _ | .failed _ _ => false

/-- A run failed, or a selector was refused. -/
def isFailure : Event → Bool
  | .failed _ _ => true
  | .started _ _ | .finished _ _ _ => false

/-- The records with which a run started. -/
def recordsIn : Event → Nat
  | .started _ records => records
  | .finished _ _ _ | .failed _ _ => 0

/-- The records that a run returned. -/
def recordsOut : Event → Nat
  | .finished _ records _ => records
  | .started _ _ | .failed _ _ => 0

end Event

namespace Metrics

/-- The counters are a tally of events, as far as 64 bits go. -/
structure Tallies (m : Metrics) (events : List Event) : Prop where
  runs : m.runs = (events.countP Event.isStart).toUInt64
  failures : m.failures = (events.countP Event.isFailure).toUInt64
  recordsIn : m.recordsIn = (events.map Event.recordsIn).sum.toUInt64
  recordsOut : m.recordsOut = (events.map Event.recordsOut).sum.toUInt64
  elapsed : m.lastElapsed?.isSome = true ↔ 0 < m.runs

variable {m : Metrics} {events : List Event}

theorem isSome_lastElapsed? (m : Metrics) : m.lastElapsed?.isSome = true ↔ 0 < m.runs := by
  unfold lastElapsed?
  split <;> simp [*]

theorem Tallies.nil : ({} : Metrics).Tallies [] := ⟨rfl, rfl, rfl, rfl, isSome_lastElapsed? _⟩

/-! ## One event more -/

theorem Tallies.begin (h : m.Tallies events) (operation : Operation) (records : Nat) :
    (m.begin records).Tallies (events ++ [.started operation records]) where
  runs := by simp [Metrics.begin, h.runs, Event.isStart]
  failures := by simp [Metrics.begin, h.failures, Event.isFailure]
  recordsIn := by simp [Metrics.begin, h.recordsIn, Event.recordsIn]
  recordsOut := by simp [Metrics.begin, h.recordsOut, Event.recordsOut]
  elapsed := isSome_lastElapsed? _

theorem Tallies.finish (h : m.Tallies events) (operation : Operation) (records elapsed : Nat)
    (snapshot : Metrics) :
    (m.finish records elapsed).Tallies (events ++ [.finished operation records snapshot]) where
  runs := by simp [Metrics.finish, h.runs, Event.isStart]
  failures := by simp [Metrics.finish, h.failures, Event.isFailure]
  recordsIn := by simp [Metrics.finish, h.recordsIn, Event.recordsIn]
  recordsOut := by simp [Metrics.finish, h.recordsOut, Event.recordsOut]
  elapsed := isSome_lastElapsed? _

theorem Tallies.fail (h : m.Tallies events) (operation message : String) (elapsed : Nat) :
    (m.fail elapsed).Tallies (events ++ [.failed operation message]) where
  runs := by simp [Metrics.fail, h.runs, Event.isStart]
  failures := by simp [Metrics.fail, h.failures, Event.isFailure]
  recordsIn := by simp [Metrics.fail, h.recordsIn, Event.recordsIn]
  recordsOut := by simp [Metrics.fail, h.recordsOut, Event.recordsOut]
  elapsed := isSome_lastElapsed? _

end Metrics

/-- A call in a session: a bundle, the records to carry it out on, and the nanoseconds that it
takes. -/
structure Call where
  bundle : Bundle
  records : RecordSet
  elapsed : Nat

namespace Run

/-- The runs of calls in order, each with the counters that the one before it left. -/
def session (metrics : Metrics) : List Call → List Run
  | [] => []
  | call :: calls =>
    let run := ofBundle metrics call.elapsed call.bundle call.records
    run :: session run.metrics calls

/-- The events of a session in order. -/
def sessionEvents (runs : List Run) : List Event := runs.flatMap events

/-- What the run of a call returns and reports. The metrics in a report are the counters at that
time, the run itself among them. -/
inductive Reported (call : Call) (run : Run) : Prop where
  | finished {o : Operation} {out : RecordSet} (hop : call.bundle.operation = o.selector)
    (hresult : run.result = .ok out)
    (hevents : run.events =
      [.started o call.records.length, .finished o out.length run.metrics])
  | failed {o : Operation} {failure : Failure} (hop : call.bundle.operation = o.selector)
    (hresult : run.result = .error (.failed ⟨o.selector, failure⟩))
    (hevents : run.events =
      [.started o call.records.length, .failed o.selector failure.message])
  | panicked (hpanics : call.bundle.Panics call.records) (hresult : run.result = .error .panicked)
    (hevents : run.events = [.started .read call.records.length])
  | refused {failure : Failure} (hop : ∀ o : Operation, call.bundle.operation ≠ o.selector)
    (hfailure : failure = .unsupportedOperation call.bundle.operation)
    (hresult : run.result = .error (.failed ⟨call.bundle.operation, failure⟩))
    (hevents : run.events = [.failed call.bundle.operation failure.message])

/-! ## One call -/

theorem ofRequest_of_ok {request : Request} {records out : RecordSet}
    (h : request.perform records = .ok out) (metrics : Metrics) (elapsed : Nat) :
    let run := ofRequest metrics elapsed request records
    run.result = .ok out ∧
      run.metrics = (metrics.begin records.length).finish out.length elapsed ∧
      run.events = [.started request.operation records.length,
        .finished request.operation out.length run.metrics] := by
  simp [ofRequest, h, events, List.filterMap_append, Note.event?]

theorem ofRequest_of_panicked {request : Request} {records : RecordSet}
    (h : request.perform records = .error .panicked) (metrics : Metrics) (elapsed : Nat) :
    let run := ofRequest metrics elapsed request records
    run.result = .error .panicked ∧ run.metrics = metrics.begin records.length ∧
      run.events = [.started request.operation records.length] := by
  simp [ofRequest, h, events, Note.event?]

theorem ofRequest_of_failed {request : Request} {records : RecordSet} {failure : Failure}
    (h : request.perform records = .error (.failed failure)) (metrics : Metrics) (elapsed : Nat) :
    let run := ofRequest metrics elapsed request records
    run.result = .error (.failed ⟨request.operation.selector, failure⟩) ∧
      run.metrics = (metrics.begin records.length).fail elapsed ∧
      run.events = [.started request.operation records.length,
        .failed request.operation.selector failure.message] := by
  simp [ofRequest, h, events, List.filterMap_append, Note.event?]

/-- A call reports what it does, and the counters go on tallying. -/
theorem ofBundle_reported {metrics : Metrics} {past : List Event} (h : metrics.Tallies past)
    (call : Call) :
    let run := ofBundle metrics call.elapsed call.bundle call.records
    Reported call run ∧ run.metrics.Tallies (past ++ run.events) := by
  by_cases hop : ∃ o : Operation, call.bundle.operation = o.selector
  · obtain ⟨o, hop⟩ := hop
    have hrun : ofBundle metrics call.elapsed call.bundle call.records =
        ofRequest metrics call.elapsed (call.bundle.resolved o) call.records := by
      rw [ofBundle, Bundle.request_of_selector hop]
    have hbegin := h.begin o call.records.length
    rw [hrun]
    match hperform : (call.bundle.resolved o).perform call.records with
    | .ok out =>
      obtain ⟨hresult, hmetrics, hevents⟩ := ofRequest_of_ok hperform metrics call.elapsed
      rw [Bundle.operation_resolved] at hevents
      refine ⟨.finished hop hresult hevents, ?_⟩
      rw [hevents, List.append_cons, hmetrics]
      exact hbegin.finish o out.length call.elapsed _
    | .error .panicked =>
      obtain ⟨hresult, hmetrics, hevents⟩ := ofRequest_of_panicked hperform metrics call.elapsed
      have hpanics := (Bundle.panics_iff_of_selector hop call.records).2 hperform
      obtain rfl : o = .read := by
        have hread := hpanics.operation
        cases o <;> simp [hop, Operation.selector] at hread ⊢
      rw [Bundle.operation_resolved] at hevents
      refine ⟨.panicked hpanics hresult hevents, ?_⟩
      rw [hevents, hmetrics]
      exact hbegin
    | .error (.failed failure) =>
      obtain ⟨hresult, hmetrics, hevents⟩ := ofRequest_of_failed hperform metrics call.elapsed
      rw [Bundle.operation_resolved] at hresult hevents
      refine ⟨.failed hop hresult hevents, ?_⟩
      rw [hevents, List.append_cons, hmetrics]
      exact hbegin.fail o.selector failure.message call.elapsed
  · have hno := not_exists.1 hop
    have hrun : ofBundle metrics call.elapsed call.bundle call.records =
        { result := .error (.failed ⟨call.bundle.operation,
            .unsupportedOperation call.bundle.operation⟩)
          metrics := metrics.fail 0
          notes := [.event (.failed call.bundle.operation
            (Failure.unsupportedOperation call.bundle.operation).message)] } := by
      rw [ofBundle, Bundle.request_of_no_selector hno]
    rw [hrun]
    exact ⟨.refused hno rfl rfl rfl, h.fail _ _ 0⟩

/-! ## A sequence of calls -/

/-- What holds of each call of a session that goes on from counters which tally past events. -/
theorem session_reported_from {metrics : Metrics} {past : List Event} (h : metrics.Tallies past)
    (before : List Call) (call : Call) (after : List Call) :
    let runs := session metrics (before ++ call :: after)
    ∃ run, runs[before.length]? = some run ∧ Reported call run ∧
      run.result = call.bundle.perform call.records ∧
      run.metrics.Tallies (past ++ sessionEvents (runs.take (before.length + 1))) := by
  -- On the calls in front: the first one leaves counters that tally the past and its own events.
  induction before generalizing metrics past with
  | nil =>
    obtain ⟨hreported, htallies⟩ := ofBundle_reported h call
    refine ⟨_, rfl, hreported, result_ofBundle _ _ _ _, ?_⟩
    simpa [sessionEvents, session] using htallies
  | cons first before ih =>
    obtain ⟨-, htallies⟩ := ofBundle_reported h first
    obtain ⟨run, hrun, hreported, hresult, hafter⟩ := ih htallies
    refine ⟨run, hrun, hreported, hresult, ?_⟩
    simpa [sessionEvents, session, List.append_assoc] using hafter

end Run

end LooseRecords
