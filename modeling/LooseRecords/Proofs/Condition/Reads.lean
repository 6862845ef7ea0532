import LooseRecords.Proofs.Condition.Missing

/-!
# What conditions read

A condition reads one field of a record and a group the fields of its conditions, no more. The check
of a group reads of a record set which of these fields some record has.
-/

namespace LooseRecords

theorem Condition.isMet_of_get?_eq {c : Condition} {r s : Record}
    (h : r.get? c.field = s.get? c.field) (caseSensitive : Bool) :
    c.isMet caseSensitive r = c.isMet caseSensitive s := by
  simp only [isMet, h]

/-- The answer that several answers come to. -/
def Logic.combine : Logic → List Bool → Bool
  | .all, answers => answers.all id
  | .any, answers => answers.any id

namespace Group

variable {g : Group}

/-- A group combines the answers of its conditions, if it has any. -/
theorem isMet_eq (g : Group) (r : Record) :
    g.isMet r =
      (g.isEmpty || g.logic.combine (g.conditions.map (·.isMet g.caseSensitive r))) := by
  obtain ⟨conditions, logic, caseSensitive⟩ := g
  rw [isMet]
  cases hempty : isEmpty { conditions, logic, caseSensitive } with
  | true => rfl
  | false => cases logic <;> simp [Logic.combine]

/-- A group depends on a record only through what its conditions make of it. -/
theorem isMet_of_conditions {r s : Record}
    (h : ∀ c ∈ g.conditions, c.isMet g.caseSensitive r = c.isMet g.caseSensitive s) :
    g.isMet r = g.isMet s := by
  rw [isMet_eq, isMet_eq, List.map_congr_left h]

/-- Records that agree on the fields of a group's conditions both meet the group or both do not. -/
theorem isMet_of_get?_eq {r s : Record}
    (h : ∀ c ∈ g.conditions, r.get? c.field = s.get? c.field) : g.isMet r = g.isMet s :=
  isMet_of_conditions fun c hc => Condition.isMet_of_get?_eq (h c hc) g.caseSensitive

/-- Of record sets that have the same fields of a group's conditions the check says the same. -/
theorem check_congr {records other : RecordSet}
    (h : ∀ c ∈ g.conditions, records.Carries c.field ↔ other.Carries c.field) :
    g.check records = g.check other := by
  have hfind : (g.conditions.find? fun c => !RecordSet.hasName records c.field) =
      g.conditions.find? fun c => !RecordSet.hasName other c.field := by
    rw [← List.head?_filter, ← List.head?_filter]
    congr 1
    apply List.filter_congr
    intro c hc
    rw [Bool.eq_iff_iff.2 ((RecordSet.hasName_iff records c.field).trans
      ((h c hc).trans (RecordSet.hasName_iff other c.field).symm))]
  rw [check, check, hfind]

end Group

end LooseRecords
