import LooseRecords.Proofs.Fields
import LooseRecords.Query.Filter

/-!
# Searches as conditions

A search for a term asks of a field what the condition asks that the field contains the term:
`Query.search_containing`. Without a named field it asks this of the fields that a record has, so
that a missing field is found by its name for it, `undefined`, only where it is asked for.
-/

namespace LooseRecords

/-- The condition that a field contains a term. -/
def Condition.containing (field term : String) : Condition :=
  { field, operator := .contains, operand := some term }

theorem Condition.isMet_containing (field term : String) (caseSensitive : Bool) (r : Record) :
    (containing field term).isMet caseSensitive r =
      Query.shows caseSensitive term (r.get? field) := rfl

/-- All or any of a single condition is that condition. -/
theorem Group.isMet_singleton (c : Condition) (logic : Logic) (caseSensitive : Bool) (r : Record) :
    Group.isMet { conditions := [c], logic, caseSensitive } r = c.isMet caseSensitive r := by
  cases logic <;> simp [isMet, isEmpty]

namespace Record

variable {r : Record}

theorem mem_values_iff (h : r.names.Nodup) (value : Value) :
    value ∈ r.values ↔ ∃ name, r.get? name = some value := by
  simp only [get?, Fields.get?_eq_some_iff h, values, List.mem_map, Prod.exists, exists_eq_right]

/-- The values of a record are what its names are looked up as. -/
theorem any_values (h : r.names.Nodup) (test : Option Value → Bool) :
    (r.values.any fun value => test (some value)) = r.names.any fun name => test (r.get? name) := by
  rw [Bool.eq_iff_iff, List.any_eq_true, List.any_eq_true]
  constructor
  · rintro ⟨value, hvalue, htest⟩
    obtain ⟨name, hname⟩ := (mem_values_iff h value).1 hvalue
    have hmem : name ∈ r.names :=
      (Fields.mem_names_iff r.fields name).2 (Option.isSome_iff_exists.2 ⟨value, hname⟩)
    exact ⟨name, hmem, by rwa [hname]⟩
  · rintro ⟨name, hmem, htest⟩
    obtain ⟨value, hname⟩ : ∃ value, r.get? name = some value :=
      Option.isSome_iff_exists.1 ((Fields.mem_names_iff r.fields name).1 hmem)
    exact ⟨value, (mem_values_iff h value).2 ⟨name, hname⟩, by rwa [← hname]⟩

end Record

namespace Query

/-- A search in a field selects the records that meet the condition that the field contains the
term, those that lack the field included. A search without a field selects the records that meet
this condition for one of their names, so the term occurs in a value that the record has. -/
theorem search_containing (term : String) (caseSensitive : Bool) (records : RecordSet) :
    (∀ field, field ≠ "" → ∀ logic,
      search field term caseSensitive records =
        filter { conditions := [.containing field term], logic, caseSensitive } records) ∧
    ((∀ r ∈ records, r.names.Nodup) →
      (search "" term caseSensitive records = records.filter fun r =>
        r.names.any fun name => (Condition.containing name term).isMet caseSensitive r) ∧
      ∀ r ∈ search "" term caseSensitive records, ∃ name value, r.get? name = some value ∧
        Text.occursIn (Text.fold caseSensitive term.toList)
          (Text.fold caseSensitive value.display) = true) := by
  refine ⟨fun field hfield logic => ?_, fun hnames => ⟨?_, fun r hr => ?_⟩⟩
  · have hnamed : field.isEmpty = false := by simpa using hfield
    rw [filter, funext (Group.isMet_singleton _ logic caseSensitive),
      funext (Condition.isMet_containing field term caseSensitive)]
    simp only [search, hnamed, Bool.false_eq_true, if_false]
  · apply List.filter_congr
    intro r hr
    simp only [Condition.isMet_containing]
    exact Record.any_values (hnames r hr) (shows caseSensitive term)
  · obtain ⟨hmem, hfound⟩ := List.mem_filter.1 hr
    obtain ⟨value, hvalue, hshows⟩ := List.any_eq_true.1 hfound
    obtain ⟨name, hname⟩ := (Record.mem_values_iff (hnames r hmem) value).1 hvalue
    exact ⟨name, value, hname, hshows⟩

/-- Two records of which the second lacks a field: asked for, the field is found by the term that
occurs in `undefined`, and otherwise it is not. -/
theorem search_containing_missing :
    let records : RecordSet := [⟨[("a", .string "Ab"), ("b", .null)]⟩, ⟨[("b", .string "x")]⟩]
    let condition : Group := { conditions := [.containing "a" "DEF"], caseSensitive := false }
    (∀ r ∈ records, r.names.Nodup) ∧
      search "a" "DEF" false records = [records[1]] ∧ filter condition records = [records[1]] ∧
      search "" "DEF" false records = [] ∧
      (records.filter fun r =>
        r.names.any fun name => (Condition.containing name "DEF").isMet false r) = [] := by
  intro records condition
  have hnames : ∀ r ∈ records, r.names.Nodup := by decide
  have hasked : search "a" "DEF" false records = [records[1]] := by decide +kernel
  have hall : search "" "DEF" false records = [] := by decide +kernel
  obtain ⟨hfield, hevery⟩ := search_containing "DEF" false records
  have hfilter := hfield "a" (by decide) .all
  have hany := (hevery hnames).1
  exact ⟨hnames, hasked, hfilter.symm.trans hasked, hall, hany.symm.trans hall⟩

end Query

end LooseRecords
