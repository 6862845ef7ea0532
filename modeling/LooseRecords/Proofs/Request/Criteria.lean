import LooseRecords.Proofs.Condition.Missing
import LooseRecords.Proofs.Edit.Assignment
import LooseRecords.Proofs.Merge
import LooseRecords.Proofs.Request.Resolution
import LooseRecords.Request.Codec

/-!
# Criteria of three operations

Readings, updates and deletions by conditions have their criteria under names of their own.
`Bundle.criteria_select_alike` says that the same criteria select the same records in all three: a
reading returns what a deletion leaves out, and an update assigns exactly those records.
-/

namespace LooseRecords

namespace Bundle

/-! ## Bundles with given criteria -/

/-- The bundle reads the records that meet the criteria. -/
structure FiltersBy (b : Bundle) (c : Criteria) : Prop where
  operation : b.operation = "read"
  mode : b.readMode = "filter"
  criteria : b.readCriteria = c

/-- The bundle updates the records that meet the criteria. -/
structure UpdatesBy (b : Bundle) (c : Criteria) : Prop where
  operation : b.operation = "update"
  mode : b.updateMode ≠ "cell"
  criteria : b.updateCriteria = c

/-- The bundle deletes the records that meet the criteria. -/
structure DeletesBy (b : Bundle) (c : Criteria) : Prop where
  operation : b.operation = "delete"
  mode : b.deleteMode ≠ "rowIndex"
  criteria : b.deleteCriteria = c

/-- The criteria that the document of a bundle holds under three of its names. -/
def criteriaUnder? (conditions logic caseSensitive : String) (d : Json.Document) :
    Option Criteria :=
  (d.slots? parameters).bind fun slots => criteria? slots conditions logic caseSensitive

/-- What holds after every result of a first step holds of the results of both steps. -/
theorem of_bind_eq_some {α β : Type} {x : Option α} {f : α → Option β} {motive : β → Prop}
    (h : ∀ a, x = some a → ∀ b, f a = some b → motive b) :
    ∀ b, (x >>= f) = some b → motive b := by
  intro b hb
  obtain ⟨a, ha, hf⟩ := Option.bind_eq_some_iff.1 hb
  exact h a ha b hf

/-- A bundle that is read from a document has the criteria that stand under the names of each
operation. -/
theorem criteriaUnder?_of_ofDocument? (d : Json.Document) :
    ∀ b, ofDocument? d = some b →
      criteriaUnder? "filterConditions" "conditionLogic" "filterCaseSensitive" d =
          some b.readCriteria ∧
        criteriaUnder? "updateConditions" "updateConditionLogic" "updateCaseSensitive" d =
          some b.updateCriteria ∧
        criteriaUnder? "deleteConditions" "deleteConditionLogic" "deleteCaseSensitive" d =
          some b.deleteCriteria := by
  unfold ofDocument?
  refine of_bind_eq_some fun slots hslots => ?_
  -- Parameter by parameter, in the order in which they are read.
  iterate 6 refine of_bind_eq_some fun _ _ => ?_
  refine of_bind_eq_some fun reading hreading => ?_
  iterate 11 refine of_bind_eq_some fun _ _ => ?_
  refine of_bind_eq_some fun updating hupdating => ?_
  iterate 3 refine of_bind_eq_some fun _ _ => ?_
  refine of_bind_eq_some fun deleting hdeleting => ?_
  iterate 3 refine of_bind_eq_some fun _ _ => ?_
  intro b hb
  cases hb
  simp only [criteriaUnder?, hslots, Option.bind_some]
  exact ⟨hreading, hupdating, hdeleting⟩

/-! ## What they make of records -/

theorem FiltersBy.perform {b : Bundle} {c : Criteria} (h : b.FiltersBy c) (records : RecordSet) :
    b.perform records = .ok (Query.filter c.group records) := by
  rw [perform_of_selector (o := .read) h.operation, resolved, readRequest, if_pos h.mode,
    h.criteria]
  rfl

theorem UpdatesBy.perform {b : Bundle} {c : Criteria} (h : b.UpdatesBy c) (records : RecordSet) :
    b.perform records =
      ((Edit.updateMatching c.group b.assignments records).map Prod.snd).mapError
        fun failure => .failed ⟨b.operation, failure⟩ := by
  rw [perform_of_selector (o := .update) h.operation, resolved, updateRequest, if_neg h.mode,
    h.criteria, Request.perform]
  cases Edit.updateMatching c.group b.assignments records <;> rfl

theorem DeletesBy.perform {b : Bundle} {c : Criteria} (h : b.DeletesBy c) (records : RecordSet) :
    b.perform records =
      (Edit.deleteMatching c.group records).mapError
        fun failure => .failed ⟨b.operation, failure⟩ := by
  rw [perform_of_selector (o := .delete) h.operation, resolved, deleteRequest, if_neg h.mode,
    h.criteria, Request.perform]
  cases Edit.deleteMatching c.group records <;> rfl

end Bundle

namespace Edit

/-- An update whose fields all exist maps over the records. -/
theorem updateMatching_of_carries {group : Group} {records : RecordSet}
    (h : ∀ c ∈ group.conditions, RecordSet.Carries records c.field)
    (assignments : List Assignment) :
    updateMatching group assignments records =
      .ok (records.countP group.isMet, records.map (updated group assignments)) :=
  updateMatching_eq_ok_iff.2 ⟨h, rfl, rfl⟩

/-- A deletion whose fields all exist keeps the records that do not meet the conditions. -/
theorem deleteMatching_of_carries {group : Group} {records : RecordSet}
    (hne : group.conditions ≠ [])
    (h : ∀ c ∈ group.conditions, RecordSet.Carries records c.field) :
    deleteMatching group records = .ok (records.filter fun r => !group.isMet r) := by
  have hempty : group.isEmpty = false := by simpa [Group.isEmpty] using hne
  simp only [deleteMatching, hempty, (group.check_eq_ok_iff records).2 h]
  rfl

end Edit

namespace Bundle

/-- The same criteria select the same records in a reading, an update and a deletion. If there are
conditions and all of their fields exist, the records that are read and the records that a deletion
leaves make up the input by position, and the update assigns the records at the positions of the
former and counts them. Without conditions all records are read, all are assigned and none is
deleted. The criteria of each bundle are those under the names of its operation. -/
theorem criteria_select_alike {c : Criteria} {reading updating deleting : Bundle}
    (hread : reading.FiltersBy c) (hupdate : updating.UpdatesBy c)
    (hdelete : deleting.DeletesBy c) (records : RecordSet) :
    (c.conditions ≠ [] → (∀ k ∈ c.conditions, RecordSet.Carries records k.field) →
      ∃ marks kept rest after,
        marks = records.map c.group.isMet ∧
        reading.perform records = .ok kept ∧ deleting.perform records = .ok rest ∧
        Merged marks records kept rest ∧
        updating.perform records = .ok after ∧
        after = List.zipWith
          (fun mark r => if mark then Edit.assign updating.assignments r else r) marks records ∧
        Edit.updateMatching c.group updating.assignments records = .ok (kept.length, after)) ∧
    (c.conditions = [] →
      reading.perform records = .ok records ∧ deleting.perform records = .ok records ∧
      updating.perform records = .ok (records.map (Edit.assign updating.assignments))) ∧
    ∀ d,
      (ofDocument? d = some reading →
        criteriaUnder? "filterConditions" "conditionLogic" "filterCaseSensitive" d = some c) ∧
      (ofDocument? d = some updating →
        criteriaUnder? "updateConditions" "updateConditionLogic" "updateCaseSensitive" d =
          some c) ∧
      (ofDocument? d = some deleting →
        criteriaUnder? "deleteConditions" "deleteConditionLogic" "deleteCaseSensitive" d =
          some c) := by
  rw [hread.perform, hupdate.perform, hdelete.perform]
  refine ⟨?_, ?_, ?_⟩
  · intro hne hcarries
    have hgroup : c.group.conditions ≠ [] := hne
    have hfields : ∀ k ∈ c.group.conditions, RecordSet.Carries records k.field := hcarries
    rw [Edit.updateMatching_of_carries hfields, Edit.deleteMatching_of_carries hgroup hfields]
    refine ⟨_, _, _, _, rfl, rfl, rfl, .filter _ _, rfl, ?_, ?_⟩
    · rw [List.zipWith_map_left, List.zipWith_self]
      rfl
    · rw [List.countP_eq_length_filter]
      rfl
  · intro hempty
    have hmet : ∀ r, c.group.isMet r = true := Group.isMet_of_isEmpty hempty
    have hnone : ∀ k ∈ c.group.conditions, RecordSet.Carries records k.field := by
      intro k hk
      rw [show c.group.conditions = [] from hempty] at hk
      cases hk
    rw [Edit.updateMatching_of_carries hnone]
    refine ⟨?_, ?_, ?_⟩
    · simp [Query.filter, hmet]
    · have hisEmpty : c.group.isEmpty = true := by simp [Group.isEmpty, Criteria.group, hempty]
      simp only [Edit.deleteMatching, hisEmpty]
      rfl
    · have hall : Edit.updated c.group updating.assignments =
          Edit.assign updating.assignments := by
        funext r
        rw [Edit.updated, if_pos (hmet r)]
      rw [hall]
      rfl
  · intro d
    refine ⟨?_, ?_, ?_⟩
    · intro h
      rw [(criteriaUnder?_of_ofDocument? d _ h).1, hread.criteria]
    · intro h
      rw [(criteriaUnder?_of_ofDocument? d _ h).2.1, hupdate.criteria]
    · intro h
      rw [(criteriaUnder?_of_ofDocument? d _ h).2.2, hdelete.criteria]

/-- Two conditions either of which selects a record, and an update that writes to the field that
one of them reads. -/
theorem criteria_select_alike_either :
    let c : Criteria :=
      { conditions :=
          [{ field := "name", operator := .startsWith, operand := some "a" },
            { field := "age", operator := .greaterThan, operand := some "40" }],
        logic := "or" }
    let records : RecordSet :=
      [⟨[("name", .string "Ada"), ("age", .number (.ofNat 36))]⟩, ⟨[("name", .string "Bo")]⟩,
        ⟨[("age", .string "41")]⟩]
    let reading : Bundle := { readCriteria := c }
    let updating : Bundle :=
      { operation := "update", updateMode := "rows", updateCriteria := c,
        assignments := [⟨"age", "7"⟩, ⟨"seen", "true"⟩] }
    let deleting : Bundle := { operation := "delete", deleteCriteria := c }
    ∃ marks kept rest after, marks = records.map c.group.isMet ∧
      reading.perform records = .ok kept ∧ deleting.perform records = .ok rest ∧
      Merged marks records kept rest ∧ updating.perform records = .ok after ∧
      after = List.zipWith
        (fun mark r => if mark then Edit.assign updating.assignments r else r) marks records ∧
      Edit.updateMatching c.group updating.assignments records = .ok (kept.length, after) := by
  intro c records reading updating deleting
  have hread : reading.FiltersBy c := ⟨rfl, rfl, rfl⟩
  have hupdate : updating.UpdatesBy c := ⟨rfl, by decide, rfl⟩
  have hdelete : deleting.DeletesBy c := ⟨rfl, by decide, rfl⟩
  have hcarries : ∀ k ∈ c.conditions, RecordSet.Carries records k.field := by decide
  exact (criteria_select_alike hread hupdate hdelete records).1 (by decide) hcarries

end Bundle

end LooseRecords
