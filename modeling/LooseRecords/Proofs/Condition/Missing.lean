import LooseRecords.Condition.Group

/-!
# Missing fields

When the check of a group of conditions fails, and which failure it is. `Group.check_eq_error_iff`
says that it names the first condition that asks for a field of no record.
-/

namespace LooseRecords

namespace RecordSet

/-- Some record has the field. -/
def Carries (records : RecordSet) (name : String) : Prop := ∃ r ∈ records, name ∈ r.names

theorem hasName_iff (records : RecordSet) (name : String) :
    hasName records name = true ↔ Carries records name := by
  simp only [hasName, List.any_eq_true, Carries, Record.contains, Fields.contains, Record.names,
    Fields.mem_names_iff]

instance (records : RecordSet) (name : String) : Decidable (Carries records name) :=
  decidable_of_iff _ (hasName_iff records name)

end RecordSet

namespace Condition

/-- Of a list of conditions, the first one that asks for a field of no record asks for `name`. -/
def FirstMissing (records : RecordSet) (conditions : List Condition) (name : String) : Prop :=
  ∃ before c after, conditions = before ++ c :: after ∧ c.field = name ∧
    (∀ b ∈ before, RecordSet.Carries records b.field) ∧ ¬ RecordSet.Carries records name

/-- The first condition that asks for a field of no record is the one that a search finds. -/
theorem firstMissing_iff (records : RecordSet) (conditions : List Condition) (name : String) :
    FirstMissing records conditions name ↔
      (conditions.find? fun c => !RecordSet.hasName records c.field).map field = some name := by
  simp only [FirstMissing, Option.map_eq_some_iff, List.find?_eq_some_iff_append,
    ← RecordSet.hasName_iff]
  constructor
  · rintro ⟨before, c, after, hsplit, rfl, hbefore, hc⟩
    exact ⟨c, ⟨by simpa using hc, before, after, hsplit, by simpa using hbefore⟩, rfl⟩
  · rintro ⟨c, ⟨hc, before, after, hsplit, hbefore⟩, rfl⟩
    exact ⟨before, c, after, hsplit, rfl, by simpa using hbefore, by simpa using hc⟩

end Condition

namespace Group

/-- The check of a group fails exactly if a condition asks for a field of no record, and the
failure names the first such condition. -/
theorem check_eq_error_iff (g : Group) (records : RecordSet) (failure : Failure) :
    g.check records = .error failure ↔
      ∃ name, failure = .missingField name ∧
        Condition.FirstMissing records g.conditions name := by
  simp only [Condition.firstMissing_iff, check]
  cases g.conditions.find? fun c => !RecordSet.hasName records c.field with
  | none => simp
  | some c => simp [eq_comm]

/-- The check of a group succeeds exactly if every condition asks for a field of some record. -/
theorem check_eq_ok_iff (g : Group) (records : RecordSet) :
    g.check records = .ok () ↔ ∀ c ∈ g.conditions, RecordSet.Carries records c.field := by
  simp only [← RecordSet.hasName_iff, check]
  cases hfind : g.conditions.find? fun c => !RecordSet.hasName records c.field with
  | none => simpa using hfind
  | some c =>
    have hc := List.find?_some hfind
    have hmem := List.mem_of_find?_eq_some hfind
    simp only [reduceCtorEq, false_iff]
    intro hall
    simp [hall c hmem] at hc

/-- A group without conditions has nothing to check. -/
theorem check_of_isEmpty {g : Group} (h : g.conditions = []) (records : RecordSet) :
    g.check records = .ok () := by
  simp [check, h]

/-- Every record meets a group without conditions. -/
theorem isMet_of_isEmpty {g : Group} (h : g.conditions = []) (r : Record) : g.isMet r = true := by
  simp [isMet, isEmpty, h]

end Group

end LooseRecords
