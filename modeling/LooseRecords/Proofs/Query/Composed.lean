import LooseRecords.Proofs.Condition.Missing
import LooseRecords.Query.Filter

/-!
# Filters one after the other

Filters by all of several conditions may be taken apart and put together again, those by any of them
only where there is a condition: a group without conditions is met by every record, whichever way
its answers combine. Order and repetition of the conditions never count. Main statement:
`Query.filters_compose`.
-/

namespace LooseRecords

namespace Group

variable {conditions other : List Condition} {caseSensitive : Bool} {r : Record}

theorem isMet_all_iff :
    isMet { conditions, logic := .all, caseSensitive } r = true ↔
      ∀ c ∈ conditions, c.isMet caseSensitive r = true := by
  cases conditions with
  | nil => simp [isMet, isEmpty]
  | cons c conditions => simp [isMet, isEmpty]

theorem isMet_any_iff :
    isMet { conditions, logic := .any, caseSensitive } r = true ↔
      conditions = [] ∨ ∃ c ∈ conditions, c.isMet caseSensitive r = true := by
  cases conditions with
  | nil => simp [isMet, isEmpty]
  | cons c conditions => simp [isMet, isEmpty]

/-- A group asks what its conditions ask, in whichever order and however often. -/
theorem isMet_of_mem_iff (h : ∀ c, c ∈ conditions ↔ c ∈ other) (logic : Logic) :
    isMet { conditions, logic, caseSensitive } r =
      isMet { conditions := other, logic, caseSensitive } r := by
  have hnil : conditions = [] ↔ other = [] := by
    simp only [List.eq_nil_iff_forall_not_mem, h]
  rw [Bool.eq_iff_iff]
  cases logic with
  | all => simp only [isMet_all_iff, h]
  | any => simp only [isMet_any_iff, h, hnil]

theorem isMet_append_all :
    isMet { conditions := conditions ++ other, logic := .all, caseSensitive } r =
      (isMet { conditions, logic := .all, caseSensitive } r &&
        isMet { conditions := other, logic := .all, caseSensitive } r) := by
  rw [Bool.eq_iff_iff, Bool.and_eq_true, isMet_all_iff, isMet_all_iff, isMet_all_iff,
    List.forall_mem_append]

theorem isMet_append_any (hne : conditions ≠ []) (hne' : other ≠ []) :
    isMet { conditions := conditions ++ other, logic := .any, caseSensitive } r =
      (isMet { conditions, logic := .any, caseSensitive } r ||
        isMet { conditions := other, logic := .any, caseSensitive } r) := by
  have happend : conditions ++ other ≠ [] := List.append_ne_nil_of_left_ne_nil hne other
  rw [Bool.eq_iff_iff, Bool.or_eq_true, isMet_any_iff, isMet_any_iff, isMet_any_iff]
  simp only [hne, hne', happend, false_or, List.mem_append, or_and_right, exists_or]

end Group

namespace Query

/-- Records are kept by two filters in a row if they meet both groups. -/
theorem filter_filter (g h : Group) (records : RecordSet) :
    filter g (filter h records) = records.filter fun r => g.isMet r && h.isMet r :=
  List.filter_filter

/-- How filters go together. Filtering by all conditions of one list and then by all of another is
filtering once by all of both, so a filter leaves nothing more to be done by itself, and two filters
may change places, whatever their logic. If neither list is empty, a record is kept by any of both
lists exactly if it is kept by any of one or by any of the other. Of the conditions only the set
counts: their order and their repetition change nothing. -/
theorem filters_compose (records : RecordSet) (caseSensitive : Bool) :
    (∀ first second : List Condition,
      filter { conditions := second, logic := .all, caseSensitive }
          (filter { conditions := first, logic := .all, caseSensitive } records) =
        filter { conditions := first ++ second, logic := .all, caseSensitive } records) ∧
    (∀ g : Group, filter g (filter g records) = filter g records) ∧
    (∀ g h : Group, filter g (filter h records) = filter h (filter g records)) ∧
    (∀ first second : List Condition, first ≠ [] → second ≠ [] → ∀ r,
      r ∈ filter { conditions := first ++ second, logic := .any, caseSensitive } records ↔
        r ∈ filter { conditions := first, logic := .any, caseSensitive } records ∨
          r ∈ filter { conditions := second, logic := .any, caseSensitive } records) ∧
    ∀ (logic : Logic) (conditions other : List Condition), (∀ c, c ∈ conditions ↔ c ∈ other) →
      filter { conditions, logic, caseSensitive } records =
        filter { conditions := other, logic, caseSensitive } records := by
  refine ⟨?_, ?_, ?_, ?_, ?_⟩
  · intro first second
    rw [filter_filter, filter]
    refine List.filter_congr fun r _ => ?_
    rw [Group.isMet_append_all, Bool.and_comm]
  · intro g
    rw [filter_filter, filter]
    exact List.filter_congr fun r _ => Bool.and_self _
  · intro g h
    rw [filter_filter, filter_filter]
    exact List.filter_congr fun r _ => Bool.and_comm _ _
  · intro first second hfirst hsecond r
    simp only [filter, List.mem_filter, Group.isMet_append_any hfirst hsecond, Bool.or_eq_true,
      and_or_left]
  · intro logic conditions other hmem
    exact List.filter_congr fun r _ => Group.isMet_of_mem_iff hmem logic

/-- Two lists with a condition in common, asked in another order and with one condition twice. -/
theorem filters_compose_overlapping :
    let tall : Condition := { field := "n", operator := .greaterThan, operand := some "9" }
    let named : Condition := { field := "s", operator := .contains, operand := some "B" }
    let gone : Condition := { field := "t", operator := .isEmpty }
    let records : RecordSet := [⟨[("n", .string "10"), ("s", .string "ab")]⟩,
      ⟨[("n", .string "1"), ("t", .null)]⟩, ⟨[("t", .string "x")]⟩]
    let keeps (logic : Logic) (conditions : List Condition) : RecordSet :=
      filter { conditions, logic, caseSensitive := false } records
    ([tall, named] ≠ [] ∧ [gone, tall] ≠ [] ∧
      records[1] ∈ keeps .any ([tall, named] ++ [gone, tall])) ∧
    ((∀ c, c ∈ [tall, named] ++ [gone, tall] ↔ c ∈ [gone, named, tall]) ∧
      keeps .all [gone, named, tall] = [records[0]]) := by
  intro tall named gone records keeps
  obtain ⟨-, -, -, hany, hset⟩ := filters_compose records false
  have hmem : ∀ c, c ∈ [tall, named] ++ [gone, tall] ↔ c ∈ [gone, named, tall] := by
    intro c
    simp only [List.mem_append, List.mem_cons, List.not_mem_nil, or_false]
    grind
  have hgone : records[1] ∈ keeps .any [gone, tall] := by decide +kernel
  have hall : keeps .all ([tall, named] ++ [gone, tall]) = [records[0]] := by decide +kernel
  exact ⟨⟨by simp, by simp, (hany _ _ (by simp) (by simp) _).2 (.inr hgone)⟩,
    hmem, (hset .all _ _ hmem).symm.trans hall⟩

end Query

end LooseRecords
