import LooseRecords.Proofs.Fields
import LooseRecords.Query.Filter
import LooseRecords.Summary.Statistics
import Mathlib

/-!
# Groups of records

The groups of grouped statistics are built one record at a time. `Summary.groups_eq` says what
they come to: one group for each label, with the numbers of the records that have it.
-/

namespace LooseRecords

namespace Summary

variable (field groupField : String)

/-- The numbers of the records with a label, in order. -/
def numbers (records : RecordSet) (name : String) : List Number :=
  (records.filter fun r => label groupField r == name).map (contribution field)

theorem numbers_eq_nil {records : RecordSet} {name : String}
    (h : name ∉ records.map (label groupField)) : numbers field groupField records name = [] := by
  rw [numbers, List.map_eq_nil_iff, List.filter_eq_nil_iff]
  intro r hr hname
  exact h (List.mem_map.2 ⟨r, hr, by simpa using hname⟩)

/-! ## One record more -/

theorem numbers_concat (records : RecordSet) (r : Record) (name : String) :
    numbers field groupField (records ++ [r]) name =
      numbers field groupField records name ++
        if label groupField r = name then [contribution field r] else [] := by
  by_cases hname : label groupField r = name <;> simp [numbers, hname]

theorem groups_concat (records : RecordSet) (r : Record) :
    groups field groupField (records ++ [r]) =
      Fields.insert (groups field groupField records) (label groupField r)
        ((Fields.get? (groups field groupField records) (label groupField r)).getD [] ++
          [contribution field r]) := by
  simp [groups, List.foldl_append]

/-! ## All records -/

theorem names_groups (records : RecordSet) :
    Fields.names (groups field groupField records) =
      (records.map (label groupField)).eraseDups := by
  induction records using List.reverseRecOn with
  | nil => rfl
  | append_singleton records r ih =>
    rw [groups_concat, Fields.names_insert, ih, List.map_append, List.eraseDups_append,
      List.map_singleton]
    by_cases hr : label groupField r ∈ records.map (label groupField)
    · have hnone : [label groupField r].removeAll (records.map (label groupField)) = [] := by
        simpa [List.removeAll] using hr
      rw [if_pos (List.mem_eraseDups.2 hr), hnone, List.eraseDups_nil, List.append_nil]
    · have hnew : [label groupField r].removeAll (records.map (label groupField)) =
          [label groupField r] := by
        simpa [List.removeAll] using hr
      rw [if_neg (mt List.mem_eraseDups.1 hr), hnew]
      rfl

theorem nodup_names_groups (records : RecordSet) :
    (Fields.names (groups field groupField records)).Nodup := by
  induction records using List.reverseRecOn with
  | nil => exact .nil
  | append_singleton records r ih =>
    rw [groups_concat]
    exact Fields.nodup_names_insert ih _ _

theorem get?_groups (records : RecordSet) (name : String) :
    Fields.get? (groups field groupField records) name =
      if name ∈ records.map (label groupField) then some (numbers field groupField records name)
      else none := by
  -- From the right, as the groups are built: the last record joins or opens one group.
  induction records using List.reverseRecOn with
  | nil => rfl
  | append_singleton records r ih =>
    rw [groups_concat, Fields.get?_insert, numbers_concat, List.map_append, List.map_singleton]
    by_cases hname : label groupField r = name
    · subst hname
      have hnumbers : (Fields.get? (groups field groupField records)
          (label groupField r)).getD [] =
          numbers field groupField records (label groupField r) := by
        rw [ih]
        split
        · rfl
        · exact (numbers_eq_nil field groupField ‹_›).symm
      simp [hnumbers]
    · rw [ih]
      simp [hname, Ne.symm hname]

/-- There is one group for each label, in the order in which the labels first come, and it has the
numbers of the records with that label, in order. -/
theorem groups_eq (records : RecordSet) :
    groups field groupField records =
      (records.map (label groupField)).eraseDups.map fun name =>
        (name, numbers field groupField records name) := by
  have hnames := names_groups field groupField records
  refine Fields.ext_of_nodup (nodup_names_groups field groupField records) ?_ fun name => ?_
  · rw [hnames]
    simp [Fields.names, Function.comp_def]
  · rw [get?_groups, Fields.get?_map_self]
    simp only [List.mem_eraseDups]

/-- The groups have all records among them. -/
theorem sum_length_numbers (records : RecordSet) :
    ((records.map (label groupField)).eraseDups.map fun name =>
      (numbers field groupField records name).length).sum = records.length := by
  have hcount : ∀ name, (numbers field groupField records name).length =
      (records.map (label groupField)).count name := by
    intro name
    rw [numbers, List.length_map, List.count, List.countP_map, List.countP_eq_length_filter]
    rfl
  have hnodup := nodup_names_groups field groupField records
  rw [names_groups] at hnodup
  have hperm : (records.map (label groupField)).eraseDups.Perm
      (records.map (label groupField)).dedup :=
    (List.perm_ext_iff_of_nodup hnodup (List.nodup_dedup _)).2 (by simp)
  simp only [hcount]
  rw [(hperm.map _).sum_eq, List.sum_map_count_dedup_eq_length, List.length_map]

/-! ## Groups as filters -/

/-- The conditions that tell the records of a group: their field is not vacant and shows the label.
The group of the vacant fields has the records as well whose field shows its label. -/
def membership (groupField name : String) : Group :=
  if name = "undefined" then
    { conditions := [{ field := groupField, operator := .isEmpty },
        { field := groupField, operator := .equals, operand := some name }],
      logic := .any, caseSensitive := true }
  else
    { conditions := [{ field := groupField, operator := .equals, operand := some name },
        { field := groupField, operator := .isNotEmpty }],
      logic := .all, caseSensitive := true }

theorem isMet_membership (name : String) (r : Record) :
    (membership groupField name).isMet r = (label groupField r == name) := by
  have hequals : ({ field := groupField, operator := .equals, operand := some name } :
      Condition).isMet true r =
        (String.ofList (Value.displayField (r.get? groupField)) == name) := by
    show (Value.displayField (r.get? groupField) == name.toList) = _
    rw [Bool.eq_iff_iff, beq_iff_eq, beq_iff_eq, String.ofList_eq]
  have hisEmpty : ({ field := groupField, operator := .isEmpty } : Condition).isMet true r =
      Value.isVacant (r.get? groupField) := rfl
  have hisNotEmpty : ({ field := groupField, operator := .isNotEmpty } : Condition).isMet true r =
      !Value.isVacant (r.get? groupField) := rfl
  unfold membership label
  by_cases hname : name = "undefined"
  · rw [if_pos hname]
    simp only [Group.isMet, Group.isEmpty, List.isEmpty_cons, List.any_cons, List.any_nil,
      hisEmpty, hequals]
    cases Value.isVacant (r.get? groupField) <;> simp [hname]
  · rw [if_neg hname]
    simp only [Group.isMet, Group.isEmpty, List.isEmpty_cons, List.all_cons, List.all_nil,
      hisNotEmpty, hequals]
    cases Value.isVacant (r.get? groupField) <;> simp [Ne.symm hname]

/-- The records of a group are those that its conditions let through. -/
theorem filter_membership (name : String) (records : RecordSet) :
    Query.filter (membership groupField name) records =
      records.filter fun r => label groupField r == name := by
  rw [Query.filter, funext (isMet_membership groupField name)]

/-! ## Rows -/

/-- The row of a group: its label, and the summary of its numbers. -/
def row (records : RecordSet) (name : String) : Record :=
  ⟨("group", .string name) :: fields (Aggregate.ofList (numbers field groupField records name))⟩

theorem statistics_eq_map_row (hgroup : groupField ≠ "") (records : RecordSet) :
    statistics field (some groupField) records =
      (records.map (label groupField)).eraseDups.map (row field groupField records) := by
  have hnamed : (some groupField).filter (fun name => !name.isEmpty) = some groupField := by
    simpa [Option.filter] using hgroup
  simp only [statistics, hnamed, groups_eq, List.map_map]
  rfl

/-- Statistics by group are the statistics of each group by itself. There is one row for each
label, in the order in which the labels first come, and the counts add up to the number of records.
A row is the label followed by the summary of the records that the conditions of the group let
through. -/
theorem statistics_grouped {groupField : String} (hgroup : groupField ≠ "") (field : String)
    (records : RecordSet) :
    let rows := statistics field (some groupField) records
    let labels := (records.map (label groupField)).eraseDups
    rows.map (·.get? "group") = labels.map (fun name => some (.string name)) ∧ labels.Nodup ∧
      (∃ counts : List Nat,
        rows.map (·.get? "count") = counts.map (fun n => some (.number (.ofNat n))) ∧
          counts.sum = records.length) ∧
      (∀ row ∈ rows, ∃ name summary,
        row.fields = ("group", .string name) :: summary.fields ∧
          statistics field none (Query.filter (membership groupField name) records) =
            [summary]) ∧
      ∀ r ∈ records, ∃ row ∈ rows, row.get? "group" = some (.string (label groupField r)) := by
  intro rows labels
  have hrows : rows = labels.map (row field groupField records) :=
    statistics_eq_map_row field groupField hgroup records
  have hnodup := nodup_names_groups field groupField records
  rw [names_groups] at hnodup
  rw [hrows]
  refine ⟨?_, hnodup, ⟨labels.map fun name => (numbers field groupField records name).length, ?_,
    sum_length_numbers field groupField records⟩, ?_, ?_⟩
  · rw [List.map_map]
    rfl
  · rw [List.map_map, List.map_map]
    rfl
  · intro r hr
    obtain ⟨name, -, rfl⟩ := List.mem_map.1 hr
    refine ⟨name, _, rfl, ?_⟩
    rw [filter_membership]
    rfl
  · intro r hr
    have hlabel : label groupField r ∈ labels :=
      List.mem_eraseDups.2 (List.mem_map.2 ⟨r, hr, rfl⟩)
    exact ⟨_, List.mem_map.2 ⟨_, hlabel, rfl⟩, rfl⟩

/-- Fields without a value and a field that shows what they are labelled with are one group, and a
number is in a group with the text that shows it. -/
theorem statistics_grouped_vacant :
    let records : RecordSet :=
      [⟨[("g", .string "1"), ("v", .number (.ofNat 2))]⟩, ⟨[("v", .number (.ofNat 3))]⟩,
        ⟨[("g", .null), ("v", .string "x")]⟩, ⟨[("g", .number (.ofNat 1))]⟩,
        ⟨[("g", .string "undefined")]⟩, ⟨[("g", .number .zero)]⟩]
    let rows := statistics "v" (some "g") records
    let labels := (records.map (label "g")).eraseDups
    "g" ≠ "" ∧ labels = ["1", "undefined"] ∧
      rows.map (·.get? "group") = labels.map (fun name => some (.string name)) ∧ labels.Nodup ∧
      (∃ counts : List Nat,
        rows.map (·.get? "count") = counts.map (fun n => some (.number (.ofNat n))) ∧
          counts.sum = records.length) ∧
      (∀ row ∈ rows, ∃ name summary,
        row.fields = ("group", .string name) :: summary.fields ∧
          statistics "v" none (Query.filter (membership "g" name) records) = [summary]) ∧
      ∀ r ∈ records, ∃ row ∈ rows, row.get? "group" = some (.string (label "g" r)) := by
  intro records rows labels
  have hgroup : "g" ≠ "" := by decide
  have hlabels : labels = ["1", "undefined"] := by decide +kernel
  exact ⟨hgroup, hlabels, statistics_grouped hgroup "v" records⟩

end Summary

end LooseRecords
