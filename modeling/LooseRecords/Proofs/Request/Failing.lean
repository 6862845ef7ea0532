import LooseRecords.Proofs.Condition.Missing
import LooseRecords.Proofs.Edit.Creation
import LooseRecords.Proofs.Query.Stable
import LooseRecords.Proofs.Request.Resolution

/-!
# Failing bundles

Which bundles fail, on which record sets and with which failure. `Bundle.Fails` lists the ways;
`Bundle.perform_fails_iff` says that there are no others and that each of them does fail. A bundle
that fails in none of these ways returns records unless it panics, which only a sorting of many
records can do.
-/

namespace LooseRecords

namespace Edit

/-- If a second step always has a result, both steps fail exactly if the first one does. -/
theorem bind_eq_error_iff {ε α β : Type} {x : Except ε α} {f : α → Except ε β}
    (hf : ∀ a, ∃ b, f a = .ok b) (e : ε) : (x >>= f) = .error e ↔ x = .error e := by
  cases x with
  | error cause =>
    show (Except.error cause : Except ε β) = .error e ↔ _
    simp
  | ok a =>
    obtain ⟨b, hb⟩ := hf a
    show f a = .error e ↔ _
    simp [hb]

/-- A creation fails exactly if its payload is refused. -/
theorem create_eq_error_iff (payload : Json) (place : Place) (records : RecordSet)
    (failure : Failure) :
    create payload place records = .error failure ↔
      failure = .unreadablePayload ∧
        ∀ content, Contains payload content → ¬ content.HoldsRecords := by
  rw [← payloadRecords_eq_error_iff]
  unfold create
  apply bind_eq_error_iff
  intro new
  cases place
  · exact ⟨records ++ new, rfl⟩
  · exact ⟨new ++ records, rfl⟩

/-- An update by conditions fails exactly if the check of its conditions does. -/
theorem updateMatching_eq_error_iff (group : Group) (assignments : List Assignment)
    (records : RecordSet) (failure : Failure) :
    updateMatching group assignments records = .error failure ↔
      ∃ name, failure = .missingField name ∧
        Condition.FirstMissing records group.conditions name := by
  rw [← Group.check_eq_error_iff]
  unfold updateMatching
  apply bind_eq_error_iff
  intro _
  exact ⟨_, rfl⟩

/-- A deletion by conditions fails exactly if the check of its conditions does: without conditions
there is nothing to check. -/
theorem deleteMatching_eq_error_iff (group : Group) (records : RecordSet) (failure : Failure) :
    deleteMatching group records = .error failure ↔
      ∃ name, failure = .missingField name ∧
        Condition.FirstMissing records group.conditions name := by
  rw [← Group.check_eq_error_iff]
  unfold deleteMatching
  split
  case isTrue hempty =>
    have hnil : group.conditions = [] := by simpa [Group.isEmpty] using hempty
    rw [Group.check_of_isEmpty hnil]
    simp
  case isFalse =>
    apply bind_eq_error_iff
    intro _
    exact ⟨_, rfl⟩

end Edit

namespace Request

/-- What makes a request fail on a record set, and with which failure. -/
inductive Fails (records : RecordSet) : Request → Failure → Prop where
  | unreadable {payload : Json} {place : Place}
    (h : ∀ content, Edit.Contains payload content → ¬ content.HoldsRecords) :
    Fails records (.create payload place) .unreadablePayload
  | update {group : Group} {assignments : List Assignment} {name : String}
    (h : Condition.FirstMissing records group.conditions name) :
    Fails records (.updateMatching group assignments) (.missingField name)
  | delete {group : Group} {name : String}
    (h : Condition.FirstMissing records group.conditions name) :
    Fails records (.deleteMatching group) (.missingField name)

/-- An operation that can fail but not panic stops exactly if it fails. -/
theorem mapError_eq_failed_iff {φ α : Type} {x : Except φ α} {failure : φ} :
    x.mapError Stop.failed = .error (.failed failure) ↔ x = .error failure := by
  cases x with
  | error e =>
    show (Except.error (Stop.failed e) : Except (Stop φ) α) = _ ↔ _
    simp
  | ok a =>
    show (Except.ok a : Except (Stop φ) α) = _ ↔ _
    simp

theorem mapError_ne_panicked {φ α : Type} (x : Except φ α) :
    x.mapError Stop.failed ≠ .error .panicked := by
  cases x with
  | error e =>
    show (Except.error (Stop.failed e) : Except (Stop φ) α) ≠ _
    simp
  | ok a =>
    show (Except.ok a : Except (Stop φ) α) ≠ _
    simp

theorem perform_eq_failed_iff (request : Request) (records : RecordSet) (failure : Failure) :
    request.perform records = .error (.failed failure) ↔ Fails records request failure := by
  cases request with
  | create payload place =>
    show (Edit.create payload place records).mapError Stop.failed = _ ↔ _
    rw [mapError_eq_failed_iff, Edit.create_eq_error_iff]
    exact ⟨fun ⟨hf, h⟩ => hf ▸ .unreadable h, fun | .unreadable h => ⟨rfl, h⟩⟩
  | updateMatching group assignments =>
    have hmap : (Edit.updateMatching group assignments records).map Prod.snd = .error failure ↔
        Edit.updateMatching group assignments records = .error failure := by
      cases Edit.updateMatching group assignments records <;> simp [Except.map]
    show ((Edit.updateMatching group assignments records).map Prod.snd).mapError Stop.failed = _ ↔ _
    rw [mapError_eq_failed_iff, hmap, Edit.updateMatching_eq_error_iff]
    exact ⟨fun ⟨_, hf, h⟩ => hf ▸ .update h, fun | .update h => ⟨_, rfl, h⟩⟩
  | deleteMatching group =>
    show (Edit.deleteMatching group records).mapError Stop.failed = _ ↔ _
    rw [mapError_eq_failed_iff, Edit.deleteMatching_eq_error_iff]
    exact ⟨fun ⟨_, hf, h⟩ => hf ▸ .delete h, fun | .delete h => ⟨_, rfl, h⟩⟩
  | sort field direction =>
    rw [perform]
    split <;> constructor <;> intro h <;> cases h
  | filter | search | page | cells | passThrough | updateAt | deleteAt | removeDuplicates
  | statistics =>
    -- These have a result in every case.
    constructor <;> intro h <;> cases h

/-- Another account of failures does not change which stops are failures. -/
theorem mapError_map_eq_failed_iff {φ ψ α : Type} {f : φ → ψ} {x : Except (Stop φ) α}
    {failure : ψ} : x.mapError (Stop.map f) = .error (Stop.failed failure) ↔
      ∃ cause, x = .error (.failed cause) ∧ f cause = failure := by
  cases x with
  | ok a =>
    show (Except.ok a : Except (Stop ψ) α) = _ ↔ _
    simp
  | error stop =>
    show (Except.error (stop.map f) : Except (Stop ψ) α) = _ ↔ _
    cases stop <;> simp [Stop.map]

theorem mapError_map_eq_panicked_iff {φ ψ α : Type} {f : φ → ψ} {x : Except (Stop φ) α} :
    x.mapError (Stop.map f) = .error Stop.panicked ↔ x = .error .panicked := by
  cases x with
  | ok a =>
    show (Except.ok a : Except (Stop ψ) α) = _ ↔ _
    simp
  | error stop =>
    show (Except.error (stop.map f) : Except (Stop ψ) α) = _ ↔ _
    cases stop <;> simp [Stop.map]

/-- Only a sorting panics, where it has no result. -/
theorem perform_eq_panicked_iff (request : Request) (records : RecordSet) :
    request.perform records = .error .panicked ↔
      ∃ field direction, request = .sort field direction ∧
        Query.sort field direction records = none := by
  cases request with
  | create | updateMatching | deleteMatching => simp [perform, mapError_ne_panicked]
  | sort field direction =>
    rw [perform]
    split
    case h_1 hsorted => simp [hsorted]
    case h_2 hnone => simp [hnone]
  | filter | search | page | cells | passThrough | updateAt | deleteAt | removeDuplicates
  | statistics => simp [perform]

end Request

namespace Bundle

/-- What makes a bundle fail on a record set, and with which failure. -/
inductive Fails (b : Bundle) (records : RecordSet) : Failure → Prop where
  | unsupported
    (h : b.operation ∉
      ["create", "read", "update", "delete", "removeDuplicates", "statistics"]) :
    Fails b records (.unsupportedOperation b.operation)
  | unreadable (hop : b.operation = "create")
    (h : ∀ content, Edit.Contains b.payload content → ¬ content.HoldsRecords) :
    Fails b records .unreadablePayload
  | update {name : String} (hop : b.operation = "update") (hmode : b.updateMode ≠ "cell")
    (h : Condition.FirstMissing records b.updateCriteria.conditions name) :
    Fails b records (.missingField name)
  | delete {name : String} (hop : b.operation = "delete") (hmode : b.deleteMode ≠ "rowIndex")
    (h : Condition.FirstMissing records b.deleteCriteria.conditions name) :
    Fails b records (.missingField name)

/-- A bundle whose selector names an operation fails as the request for that operation does. -/
theorem fails_iff_of_selector {b : Bundle} {o : Operation} (hop : b.operation = o.selector)
    (records : RecordSet) (failure : Failure) :
    Fails b records failure ↔ (b.resolved o).Fails records failure := by
  constructor
  · intro h
    cases h with
    | unsupported h =>
      have hmem : b.operation ∈
          ["create", "read", "update", "delete", "removeDuplicates", "statistics"] := by
        rw [hop]
        cases o <;> simp [Operation.selector]
      exact absurd hmem h
    | unreadable hcreate h =>
      obtain rfl : o = .create := by
        cases o <;> simp [hop, Operation.selector] at hcreate ⊢
      exact .unreadable h
    | update hupdate hmode h =>
      obtain rfl : o = .update := by
        cases o <;> simp [hop, Operation.selector] at hupdate ⊢
      rw [resolved, updateRequest, if_neg hmode]
      exact .update h
    | delete hdelete hmode h =>
      obtain rfl : o = .delete := by
        cases o <;> simp [hop, Operation.selector] at hdelete ⊢
      rw [resolved, deleteRequest, if_neg hmode]
      exact .delete h
  · intro h
    cases o with
    | create =>
      cases h with
      | unreadable h => exact .unreadable hop h
    | read =>
      rw [resolved, readRequest] at h
      repeat' split at h
      all_goals cases h
    | update =>
      rw [resolved, updateRequest] at h
      split at h
      case isTrue => cases h
      case isFalse hmode =>
        cases h with
        | update h => exact .update hop hmode h
    | delete =>
      rw [resolved, deleteRequest] at h
      split at h
      case isTrue => cases h
      case isFalse hmode =>
        cases h with
        | delete h => exact .delete hop hmode h
    | removeDuplicates | statistics => cases h

/-- A bundle whose selector names no operation fails on every record set, and in one way. -/
theorem fails_iff_of_no_selector {b : Bundle} (hop : ∀ o : Operation, b.operation ≠ o.selector)
    (records : RecordSet) (failure : Failure) :
    Fails b records failure ↔ failure = .unsupportedOperation b.operation := by
  constructor
  · intro h
    cases h with
    | unsupported => rfl
    | unreadable hcreate => exact absurd hcreate (hop .create)
    | update hupdate => exact absurd hupdate (hop .update)
    | delete hdelete => exact absurd hdelete (hop .delete)
  · intro h
    subst h
    refine .unsupported fun hmem => ?_
    simp only [List.mem_cons, List.not_mem_nil, or_false] at hmem
    obtain h | h | h | h | h | h := hmem
    · exact hop .create h
    · exact hop .read h
    · exact hop .update h
    · exact hop .delete h
    · exact hop .removeDuplicates h
    · exact hop .statistics h

/-- A bundle panics where it sorts records and the sorting has no result. -/
structure Panics (b : Bundle) (records : RecordSet) : Prop where
  operation : b.operation = "read"
  mode : b.readMode = "sort"
  unsorted : Query.sort b.sortField (.ofSelector b.sortOrder) records = none

/-- A bundle whose selector names an operation panics as the request for that operation does. -/
theorem panics_iff_of_selector {b : Bundle} {o : Operation} (hop : b.operation = o.selector)
    (records : RecordSet) :
    b.Panics records ↔ (b.resolved o).perform records = .error .panicked := by
  rw [Request.perform_eq_panicked_iff]
  constructor
  · rintro ⟨hread, hmode, hnone⟩
    obtain rfl : o = .read := by
      cases o <;> simp [hop, Operation.selector] at hread ⊢
    refine ⟨_, _, ?_, hnone⟩
    rw [resolved, readRequest, if_neg (by rw [hmode]; decide), if_pos hmode]
  · rintro ⟨field, direction, hsort, hnone⟩
    cases o with
    | read =>
      rw [resolved, readRequest] at hsort
      split at hsort
      case isTrue => cases hsort
      case isFalse =>
        split at hsort
        case isTrue hmode =>
          obtain ⟨rfl, rfl⟩ := Request.sort.inj hsort
          exact ⟨hop, hmode, hnone⟩
        case isFalse =>
          repeat' split at hsort
          all_goals cases hsort
    | update =>
      rw [resolved, updateRequest] at hsort
      split at hsort <;> cases hsort
    | delete =>
      rw [resolved, deleteRequest] at hsort
      split at hsort <;> cases hsort
    | create | removeDuplicates | statistics => cases hsort

end Bundle

end LooseRecords
