import LooseRecords.Edit.Assignment
import LooseRecords.Proofs.Condition.Missing
import LooseRecords.Proofs.Fields
import Mathlib.Data.List.Forall2

/-!
# Assignment in place

An update by conditions, carried out position by position on one record set that is changed as it
goes. `Edit.updateInPlace_eq` says that this is `Edit.updateMatching`: no record is seen half
changed, and a failure comes before the first change. `Edit.updateInPlace_exact` says what becomes
of each record.
-/

namespace LooseRecords

namespace Edit

/-! ## Assignments to one record -/

/-- What assignments make of a record. -/
structure Assigned (assignments : List Assignment) (before after : Record) : Prop where
  /-- The fields that were there keep their places; new ones follow in the order in which they are
  first assigned. -/
  names : after.names =
    before.names ++ ((assignments.map Assignment.name).removeAll before.names).eraseDups
  /-- An assigned field holds the value of the last assignment to it. -/
  last : ∀ earlier a later, assignments = earlier ++ a :: later →
    (∀ b ∈ later, b.name ≠ a.name) → after.get? a.name = some (Value.ofWritten a.value)
  /-- All other fields hold what they held. -/
  kept : ∀ name, (∀ a ∈ assignments, a.name ≠ name) → after.get? name = before.get? name

/-- The entries that assignments store. -/
def stored (assignments : List Assignment) : List (String × Value) :=
  assignments.map fun a => (a.name, Value.ofWritten a.value)

theorem names_stored (assignments : List Assignment) :
    Fields.names (stored assignments) = assignments.map Assignment.name := by
  simp [Fields.names, stored, Function.comp_def]

theorem assign_fields (assignments : List Assignment) (r : Record) :
    (assign assignments r).fields = Fields.insertAll r.fields (stored assignments) := by
  induction assignments generalizing r with
  | nil => rfl
  | cons a rest ih => exact ih (r.insert a.name (Value.ofWritten a.value))

theorem last?_stored_eq_none {assignments : List Assignment} {name : String}
    (h : ∀ a ∈ assignments, a.name ≠ name) : Fields.last? (stored assignments) name = none := by
  simpa [Fields.last?, stored] using h

theorem last?_stored_split (earlier : List Assignment) (a : Assignment) {later : List Assignment}
    (h : ∀ b ∈ later, b.name ≠ a.name) :
    Fields.last? (stored (earlier ++ a :: later)) a.name = some (Value.ofWritten a.value) := by
  induction earlier with
  | nil =>
    show Fields.last? ((a.name, Value.ofWritten a.value) :: stored later) a.name = _
    rw [Fields.last?_cons, last?_stored_eq_none h]
    simp
  | cons b earlier ih =>
    show Fields.last? ((b.name, Value.ofWritten b.value) :: stored (earlier ++ a :: later)) _ = _
    rw [Fields.last?_cons, ih]
    rfl

/-- Assignments made in order assign the record. -/
theorem assigned_assign (assignments : List Assignment) (r : Record) :
    Assigned assignments r (assign assignments r) where
  names := by
    rw [Record.names, assign_fields, Fields.names_insertAll, names_stored]
    rfl
  last := by
    rintro earlier a later rfl hlater
    rw [Record.get?, assign_fields, Fields.get?_insertAll, last?_stored_split earlier a hlater]
    rfl
  kept := by
    intro name hname
    rw [Record.get?, assign_fields, Fields.get?_insertAll, last?_stored_eq_none hname]
    rfl

/-! ## The sweep over a record set -/

/-- One position of an update in place: the record that stands there is assigned if it meets the
group. The state counts the records assigned so far. -/
def updateStep (group : Group) (assignments : List Assignment) (state : Nat × RecordSet)
    (i : Nat) : Nat × RecordSet :=
  match state.2[i]? with
  | none => state
  | some r =>
    if group.isMet r then (state.1 + 1, state.2.set i (assign assignments r)) else state

/-- An update in place: its outcome, and the record set as it stands afterwards. -/
def updateInPlace (group : Group) (assignments : List Assignment) (records : RecordSet) :
    Except Failure Nat × RecordSet :=
  match group.check records with
  | .error failure => (.error failure, records)
  | .ok _ =>
    let (count, after) :=
      (List.range records.length).foldl (updateStep group assignments) (0, records)
    (.ok count, after)

/-- The record after an update, given the record before it. -/
def updated (group : Group) (assignments : List Assignment) (r : Record) : Record :=
  if group.isMet r then assign assignments r else r

/-- An update by conditions is the check of its group and, behind it, a map over the records. -/
theorem updateMatching_eq (group : Group) (assignments : List Assignment) (records : RecordSet) :
    updateMatching group assignments records = (group.check records).map fun _ =>
      (records.countP group.isMet, records.map (updated group assignments)) := by
  unfold updateMatching
  cases group.check records <;> rfl

theorem updateMatching_eq_ok_iff {group : Group} {assignments : List Assignment}
    {records after : RecordSet} {count : Nat} :
    updateMatching group assignments records = .ok (count, after) ↔
      (∀ c ∈ group.conditions, RecordSet.Carries records c.field) ∧
        count = records.countP group.isMet ∧ after = records.map (updated group assignments) := by
  rw [updateMatching_eq, ← group.check_eq_ok_iff]
  cases group.check records <;> simp [Except.map, eq_comm]

/-- A step changes the record at its position and no other. -/
theorem updateStep_at (group : Group) (assignments : List Assignment) (count : Nat)
    (done : RecordSet) (r : Record) (rest : RecordSet) :
    updateStep group assignments (count, done ++ r :: rest) done.length =
      (count + (if group.isMet r then 1 else 0),
        done ++ [updated group assignments r] ++ rest) := by
  cases hr : group.isMet r <;> simp [updateStep, updated, hr]

/-- The sweep from a position on: the records in front of it stay, those from it on are updated,
and the count grows by those of them that meet the group. -/
theorem updateStep_sweep (group : Group) (assignments : List Assignment) (count : Nat)
    (done rest : RecordSet) :
    (List.range' done.length rest.length).foldl (updateStep group assignments)
        (count, done ++ rest) =
      (count + rest.countP group.isMet, done ++ rest.map (updated group assignments)) := by
  -- What is done grows by the record at the position, and the position with it.
  induction rest generalizing count done with
  | nil => simp
  | cons r rest ih =>
    have hnext := ih (count + if group.isMet r then 1 else 0)
      (done ++ [updated group assignments r])
    rw [List.length_append, List.length_singleton] at hnext
    rw [List.length_cons, List.range'_succ, List.foldl_cons, updateStep_at, hnext]
    simp only [List.countP_cons, List.append_assoc, List.map_cons, List.singleton_append,
      Nat.add_right_comm, Nat.add_assoc]

/-- The update in place and the update by a map over the records are one. -/
theorem updateInPlace_eq (group : Group) (assignments : List Assignment) (records : RecordSet) :
    updateInPlace group assignments records =
      match updateMatching group assignments records with
      | .error failure => (.error failure, records)
      | .ok (count, after) => (.ok count, after) := by
  have hsweep := updateStep_sweep group assignments 0 [] records
  simp only [List.length_nil, List.nil_append, Nat.zero_add, ← List.range_eq_range'] at hsweep
  unfold updateInPlace updateMatching
  cases hcheck : group.check records with
  | error failure => rfl
  | ok _ => rw [hsweep]; rfl

/-- Records before and after an update, side by side. -/
theorem forall₂_updated (group : Group) (assignments : List Assignment) (records : RecordSet) :
    List.Forall₂
      (fun before after =>
        if group.isMet before then Assigned assignments before after else after = before)
      records (records.map (updated group assignments)) := by
  rw [List.forall₂_map_right_iff, List.forall₂_same]
  intro r _
  cases hr : group.isMet r
  · simp [updated, hr]
  · simpa [updated, hr] using assigned_assign assignments r

/-! ## What an update does -/

/-- An update by conditions changes all that it should or nothing. It fails exactly if a condition
asks for a field of no record; the failure names the first such condition, and the record set is
what it was. Otherwise every record that met the group before is assigned and every other one is
what it was, in place, and the outcome counts the former. -/
theorem updateInPlace_exact (group : Group) (assignments : List Assignment)
    (records : RecordSet) :
    let (outcome, after) := updateInPlace group assignments records
    updateMatching group assignments records = outcome.map (·, after) ∧
      (∀ failure, outcome = .error failure ↔ ∃ name, failure = .missingField name ∧
        Condition.FirstMissing records group.conditions name) ∧
      (∀ failure, outcome = .error failure → after = records) ∧
      ((∃ count, outcome = .ok count) ↔
        ∀ c ∈ group.conditions, RecordSet.Carries records c.field) ∧
      ∀ count, outcome = .ok count → count = records.countP group.isMet ∧
        List.Forall₂
          (fun before after =>
            if group.isMet before then Assigned assignments before after else after = before)
          records after := by
  have hok := group.check_eq_ok_iff records
  have herror := group.check_eq_error_iff records
  rw [updateInPlace_eq]
  unfold updateMatching
  cases hcheck : group.check records with
  | error failure =>
    rw [hcheck] at hok herror
    refine ⟨rfl, ?_, fun _ _ => rfl, ?_, ?_⟩
    · intro failure'
      rw [← herror]
      simp
    · rw [← hok]
      simp
    · intro count h
      cases h
  | ok _ =>
    rw [hcheck] at hok herror
    refine ⟨rfl, ?_, ?_, ?_, ?_⟩
    · intro failure
      rw [← herror]
      simp
    · intro failure h
      cases h
    · rw [← hok]
      simp
    · rintro count ⟨⟩
      exact ⟨rfl, forall₂_updated group assignments records⟩

end Edit

end LooseRecords
