import LooseRecords.Run.Basic

/-!
# Resolution of bundles

Which request a bundle stands for, operation by operation, and that a run of the bundle returns
what the request makes of the records, whatever ran before.
-/

namespace LooseRecords

namespace Operation

/-- An operation is found by its own selector and by no other. -/
theorem ofSelector_eq_ok_iff (s : String) (o : Operation) :
    ofSelector s = .ok o ↔ s = o.selector := by
  constructor
  · intro h
    unfold ofSelector at h
    repeat' split at h
    all_goals cases h
    all_goals assumption
  · rintro rfl
    cases o <;> rfl

/-- A selector is refused exactly if it is that of no operation, and the failure carries it. -/
theorem ofSelector_eq_error_iff (s : String) (failure : Failure) :
    ofSelector s = .error failure ↔
      (∀ o : Operation, s ≠ o.selector) ∧ failure = .unsupportedOperation s := by
  have herror : ∀ f, ofSelector s = .error f → f = .unsupportedOperation s := by
    intro f h
    unfold ofSelector at h
    repeat' split at h
    all_goals cases h
    rfl
  cases hs : ofSelector s with
  | ok o =>
    have ho := (ofSelector_eq_ok_iff s o).1 hs
    constructor
    · intro h
      cases h
    · rintro ⟨h, -⟩
      exact absurd ho (h o)
  | error f =>
    obtain rfl := herror f hs
    have hno : ∀ o : Operation, s ≠ o.selector := by
      intro o ho
      rw [(ofSelector_eq_ok_iff s o).2 ho] at hs
      cases hs
    simp [hno, eq_comm]

end Operation

namespace Request

/-- An account of failures does not touch results. -/
theorem mapError_eq_ok_iff {ε ε' α : Type} {f : ε → ε'} {x : Except ε α} {a : α} :
    x.mapError f = .ok a ↔ x = .ok a := by
  cases x with
  | error e =>
    show (Except.error (f e) : Except ε' α) = .ok a ↔ _
    simp
  | ok b =>
    show (Except.ok b : Except ε' α) = .ok a ↔ _
    simp

theorem perform_sort_eq_ok_iff {field : String} {direction : Direction} {records out : RecordSet} :
    (Request.sort field direction).perform records = .ok out ↔
      Query.sort field direction records = some out := by
  rw [perform]
  split
  case h_1 sorted hsorted => simp [hsorted]
  case h_2 hnone => simp [hnone]

end Request

namespace Bundle

/-- The request of a bundle for an operation. -/
def resolved (b : Bundle) : Operation → Request
  | .create => .create b.payload (.ofSelector b.place)
  | .read => b.readRequest
  | .update => b.updateRequest
  | .delete => b.deleteRequest
  | .removeDuplicates => .removeDuplicates b.uniqueFields
  | .statistics =>
    .statistics b.statsField (if b.groupField.isEmpty then none else some b.groupField)

/-- The request of a bundle is for the operation that its selector names. -/
theorem operation_resolved (b : Bundle) (o : Operation) : (b.resolved o).operation = o := by
  cases o with
  | read =>
    show b.readRequest.operation = .read
    unfold readRequest
    repeat' split
    all_goals rfl
  | update =>
    show b.updateRequest.operation = .update
    unfold updateRequest
    split <;> rfl
  | delete =>
    show b.deleteRequest.operation = .delete
    unfold deleteRequest
    split <;> rfl
  | create | removeDuplicates | statistics => rfl

theorem request_of_selector {b : Bundle} {o : Operation} (h : b.operation = o.selector) :
    b.request = .ok (b.resolved o) := by
  rw [request, (Operation.ofSelector_eq_ok_iff _ _).2 h]
  cases o <;> rfl

theorem request_of_no_selector {b : Bundle} (h : ∀ o : Operation, b.operation ≠ o.selector) :
    b.request = .error (.unsupportedOperation b.operation) := by
  rw [request, (Operation.ofSelector_eq_error_iff _ _).2 ⟨h, rfl⟩]
  rfl

/-- A bundle whose selector names an operation is carried out as the request for it. -/
theorem perform_of_selector {b : Bundle} {o : Operation} (h : b.operation = o.selector)
    (records : RecordSet) :
    b.perform records =
      ((b.resolved o).perform records).mapError (.map fun failure => ⟨b.operation, failure⟩) := by
  rw [perform, request_of_selector h, h]
  simp only [operation_resolved]

/-- A bundle whose selector names no operation fails, and the failure carries the selector. -/
theorem perform_of_no_selector {b : Bundle} (h : ∀ o : Operation, b.operation ≠ o.selector)
    (records : RecordSet) :
    b.perform records = .error (.failed ⟨b.operation, .unsupportedOperation b.operation⟩) := by
  rw [perform, request_of_no_selector h]

end Bundle

namespace Run

/-- A run of a bundle returns what the bundle makes of the records, whatever the counters were. -/
theorem result_ofBundle (metrics : Metrics) (elapsed : Nat) (b : Bundle) (records : RecordSet) :
    (ofBundle metrics elapsed b records).result = b.perform records := by
  unfold ofBundle Bundle.perform
  cases b.request with
  | error failure => rfl
  | ok request =>
    show (ofRequest metrics elapsed request records).result =
      (request.perform records).mapError (.map fun failure => ⟨request.operation.selector, failure⟩)
    unfold ofRequest
    match request.perform records with
    | .ok _ | .error (.failed _) | .error .panicked => rfl

end Run

end LooseRecords
