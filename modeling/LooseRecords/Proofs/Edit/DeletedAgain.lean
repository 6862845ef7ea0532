import LooseRecords.Edit.Removal
import LooseRecords.Proofs.Condition.Missing

/-!
# The same deletion once more

A deletion leaves nothing for a second one to remove, but it may take away the last record with a
field that the conditions ask for. `Edit.deleteMatching_again` says which of the two happens: the
second deletion changes nothing, or it fails for the first field of which no record is left.
-/

namespace LooseRecords

namespace Edit

/-- There were records with the field, and none of them was left. -/
def AllDeleted (records out : RecordSet) (name : String) : Prop :=
  (∃ r ∈ records, name ∈ r.names) ∧ ∀ r ∈ records, name ∈ r.names → r ∉ out

/-- Of a list of conditions, the first one that asks for a field of which no record was left asks
for `name`. -/
def FirstDeleted (records out : RecordSet) (conditions : List Condition) (name : String) : Prop :=
  ∃ before c after, conditions = before ++ c :: after ∧ c.field = name ∧
    (∀ b ∈ before, ∃ r ∈ out, b.field ∈ r.names) ∧ AllDeleted records out name

variable {group : Group} {records out : RecordSet}

theorem deleteMatching_eq (hne : group.conditions ≠ []) :
    deleteMatching group records =
      (group.check records).map fun _ => records.filter fun r => !group.isMet r := by
  have hasks : group.isEmpty = false := List.isEmpty_eq_false_iff.2 hne
  rw [deleteMatching, hasks]
  cases group.check records <;> rfl

/-- A deletion succeeds if some record has each field that is asked for, and then leaves the records
that do not meet the group. -/
theorem deleteMatching_eq_ok_iff (hne : group.conditions ≠ []) :
    deleteMatching group records = .ok out ↔
      (∀ c ∈ group.conditions, records.Carries c.field) ∧
        out = records.filter fun r => !group.isMet r := by
  rw [deleteMatching_eq hne, ← Group.check_eq_ok_iff]
  cases group.check records with
  | error failure => simp [Except.map]
  | ok => simp [Except.map, eq_comm]

/-- A field that some record had is missing from what is left exactly if its records were all
deleted. -/
theorem not_carries_iff {name : String} (hsub : out ⊆ records) (hname : records.Carries name) :
    ¬ out.Carries name ↔ AllDeleted records out name := by
  constructor
  · intro hnone
    exact ⟨hname, fun r _ hr hout => hnone ⟨r, hout, hr⟩⟩
  · rintro ⟨-, hdeleted⟩ ⟨r, hout, hr⟩
    exact hdeleted r (hsub hout) hr hout

/-- The same deletion once more. None of the records that a deletion leaves meets the group. If each
field that the group asks for is left in some of them, the second deletion returns them as they are;
if not, it fails and names the first of these fields whose records were all deleted. -/
theorem deleteMatching_again (hne : group.conditions ≠ [])
    (h : deleteMatching group records = .ok out) :
    (∀ r ∈ out, group.isMet r = false) ∧
    ((∀ c ∈ group.conditions, out.Carries c.field) → deleteMatching group out = .ok out) ∧
    ((∃ c ∈ group.conditions, ¬ out.Carries c.field) →
      ∃ name, deleteMatching group out = .error (.missingField name) ∧
        FirstDeleted records out group.conditions name) := by
  obtain ⟨hcarries, hout⟩ := (deleteMatching_eq_ok_iff hne).1 h
  have hunmet : ∀ r ∈ out, group.isMet r = false := by
    intro r hr
    rw [hout] at hr
    simpa using (List.mem_filter.1 hr).2
  refine ⟨hunmet, ?_, ?_⟩
  · intro hfields
    refine (deleteMatching_eq_ok_iff hne).2 ⟨hfields, ?_⟩
    exact (List.filter_eq_self.2 fun r hr => by rw [hunmet r hr, Bool.not_false]).symm
  · rintro ⟨c, hc, hgone⟩
    have hsub : out ⊆ records := hout ▸ List.filter_sublist.subset
    have hfails : group.check out ≠ .ok () := fun hok =>
      hgone ((group.check_eq_ok_iff out).1 hok c hc)
    cases hcheck : group.check out with
    | ok => exact absurd hcheck hfails
    | error failure =>
      obtain ⟨name, rfl, before, first, after, hsplit, rfl, hbefore, hmissing⟩ :=
        (group.check_eq_error_iff out failure).1 hcheck
      have hfirst : first ∈ group.conditions := by simp [hsplit]
      refine ⟨first.field, by rw [deleteMatching_eq hne, hcheck]; rfl, before, first, after, hsplit,
        rfl, hbefore, ?_⟩
      exact (not_carries_iff hsub (hcarries first hfirst)).1 hmissing

/-- The one record with a note is deleted for its state, so that the second deletion, which finds a
state to look at, asks for a note in vain. -/
theorem deleteMatching_again_note :
    let group : Group :=
      { conditions := [⟨"state", .equals, some "open"⟩, ⟨"note", .contains, some "x"⟩,
          ⟨"owner", .isNotEmpty, none⟩]
        logic := .any }
    let records : RecordSet := [⟨[("state", .string "Open"), ("note", .string "y")]⟩,
      ⟨[("state", .string "closed")]⟩, ⟨[("owner", .null)]⟩]
    let out : RecordSet := [⟨[("state", .string "closed")]⟩, ⟨[("owner", .null)]⟩]
    group.conditions ≠ [] ∧ deleteMatching group records = .ok out ∧
      deleteMatching group out = .error (.missingField "note") ∧
      FirstDeleted records out group.conditions "note" := by
  intro group records out
  have hne : group.conditions ≠ [] := by decide
  have h : deleteMatching group records = .ok out :=
    (deleteMatching_eq_ok_iff hne).2 ⟨by decide, by decide +kernel⟩
  have hnote : deleteMatching group out = .error (.missingField "note") := by
    rw [deleteMatching_eq hne]
    rfl
  obtain ⟨-, -, hfails⟩ := deleteMatching_again hne h
  obtain ⟨name, herror, hfirst⟩ :=
    hfails ⟨⟨"note", .contains, some "x"⟩, by decide, by decide⟩
  cases hnote.symm.trans herror
  exact ⟨hne, h, hnote, hfirst⟩

end Edit

end LooseRecords
