import LooseRecords.Proofs.Condition.Reads
import LooseRecords.Proofs.Edit.Duplicates
import LooseRecords.Proofs.Query.FieldOrder
import LooseRecords.Proofs.Summary.Groups
import LooseRecords.Proofs.Value.Alike
import LooseRecords.Query.Filter

/-!
# Queries of records that look alike

Each query sees of a record only what `Record.Alike` keeps, so of two record sets that look alike
position by position it selects the same positions: `RecordSet.answerAlike`.
-/

namespace LooseRecords

/-! ## Records that look alike -/

/-- Functions that agree on related items agree on related lists. -/
theorem map_eq_of_forall₂ {α β γ : Type} {R : α → β → Prop} {f : α → γ} {g : β → γ} {as : List α}
    {bs : List β} (h : List.Forall₂ R as bs) (hfg : ∀ a b, R a b → f a = g b) :
    as.map f = bs.map g := by
  induction h with
  | nil => rfl
  | cons hab _ ih => rw [List.map_cons, List.map_cons, hfg _ _ hab, ih]

/-- The values are one, or numbers that are numerically equal. -/
def Value.NumericallyEqual (v w : Value) : Prop :=
  v = w ∨ ∃ m n : Number, v = .number m ∧ w = .number n ∧ m.SamePlace n

namespace Record

/-- Two records that queries by text do not tell apart. -/
structure Alike (r s : Record) : Prop where
  fields : List.Forall₂ (fun x y => x.1 = y.1 ∧ Value.Alike (some x.2) (some y.2)) r.fields s.fields
  jsonText : r.jsonText = s.jsonText

variable {r s : Record}

theorem Alike.get? (h : r.Alike s) (name : String) :
    Value.Alike (r.get? name) (s.get? name) := by
  obtain ⟨hfields, -⟩ := h
  obtain ⟨fields⟩ := r
  obtain ⟨other⟩ := s
  show Value.Alike (Fields.get? fields name) (Fields.get? other name)
  simp only at hfields
  induction hfields with
  | nil => exact .refl none
  | cons hfield _ ih =>
    obtain ⟨hname, hvalue⟩ := hfield
    rw [Fields.get?, Fields.get?, hname]
    split
    · exact hvalue
    · exact ih

theorem Alike.values (h : r.Alike s) :
    List.Forall₂ (fun v w => Value.Alike (some v) (some w)) r.values s.values :=
  List.forall₂_map_left_iff.2 (List.forall₂_map_right_iff.2 (h.fields.imp fun _ _ h => h.2))

/-- The records have the same names in the same order, with values that are one or numerically
equal numbers. -/
def NumericallyEqual (r s : Record) : Prop :=
  List.Forall₂ (fun x y => x.1 = y.1 ∧ x.2.NumericallyEqual y.2) r.fields s.fields

end Record

namespace RecordSet

/-- In no record the field is a date. -/
def DateFree (records : RecordSet) (field : String) : Prop :=
  ∀ r ∈ records, ∀ t, r.get? field ≠ some (.date t)

end RecordSet

/-! ## Conditions -/

namespace Operator

/-- The operator compares numbers. -/
def isOrdering : Operator → Bool
  | .greaterThan | .greaterOrEqual | .lessThan | .lessOrEqual => true
  | _ => false

end Operator

section

variable {r s : Record}

theorem Condition.isMet_congr {c : Condition}
    (hc : c.operator.isOrdering = false ∨ ∀ t, r.get? c.field ≠ some (.date t)) (h : r.Alike s)
    (caseSensitive : Bool) : c.isMet caseSensitive r = c.isMet caseSensitive s := by
  have hfield := h.get? c.field
  have htexts : onTexts c caseSensitive (r.get? c.field) =
      onTexts c caseSensitive (s.get? c.field) := by
    funext relation
    rw [onTexts, onTexts, hfield.text]
  have hplace : c.operator.isOrdering = true →
      (Value.asNumber (r.get? c.field)).SamePlace (Value.asNumber (s.get? c.field)) :=
    fun hordering => hfield.reading (hc.resolve_left (by simp [hordering]))
  have hself : ∀ n : Number, n.SamePlace n := .refl
  unfold isMet
  cases hop : c.operator with
  | equals | notEquals | contains | notContains | startsWith | endsWith => simp only [htexts]
  | isEmpty | isNotEmpty => simp only [hfield.vacant]
  | unknown => rfl
  | greaterThan | lessThan =>
    have hplace := hplace (by rw [hop]; rfl)
    simp only [onNumbers, Number.lt_congr hplace (hself _), Number.lt_congr (hself _) hplace]
  | greaterOrEqual | lessOrEqual =>
    have hplace := hplace (by rw [hop]; rfl)
    simp only [onNumbers, Number.le_congr hplace (hself _), Number.le_congr (hself _) hplace]

theorem Group.isMet_congr {g : Group}
    (hg : ∀ c ∈ g.conditions, c.operator.isOrdering = false ∨
      ∀ t, r.get? c.field ≠ some (.date t)) (h : r.Alike s) : g.isMet r = g.isMet s :=
  isMet_of_conditions fun c hc => Condition.isMet_congr (hg c hc) h g.caseSensitive

/-! ## Searches and orders -/

namespace Query

theorem shows_congr {v w : Option Value} (h : Value.Alike v w) (caseSensitive : Bool)
    (term : String) : shows caseSensitive term v = shows caseSensitive term w := by
  rw [shows, shows, h.text]

theorem fieldOrder_congr {a b a' b' : Option Value} (ha : Value.Alike a a')
    (hb : Value.Alike b b') : fieldOrder a b = fieldOrder a' b' := by
  have hx := ha.number
  have hy := hb.number
  rw [fieldOrder_eq, fieldOrder_eq, ha.text, hb.text]
  generalize a.bind Value.number? = x, a'.bind Value.number? = x',
    b.bind Value.number? = y, b'.bind Value.number? = y' at hx hy
  cases hx with
  | none => rfl
  | some hx =>
    cases hy with
    | none => rfl
    | some hy => simp only [Number.compare?_congr hx hy]

end Query

/-! ## Statistics -/

namespace Summary

theorem label_congr (h : r.Alike s) (field : String) : label field r = label field s := by
  have hfield := h.get? field
  rw [label, label, hfield.vacant, hfield.text]

theorem samePlace_contribution (h : r.Alike s) {field : String}
    (hdate : ∀ t, r.get? field ≠ some (.date t)) :
    (contribution field r).SamePlace (contribution field s) := by
  have hplace := (h.get? field).reading hdate
  rw [contribution, contribution, Number.isNan_congr hplace]
  split
  · exact .refl _
  · exact hplace

/-- The summary of numerically equal numbers is numerically equal, field by field. -/
theorem forall₂_fields {a b : Aggregate} (h : a.SamePlaces b) :
    List.Forall₂ (fun x y => x.1 = y.1 ∧ x.2.NumericallyEqual y.2) (fields a) (fields b) := by
  have hnumber : ∀ {m n : Number}, m.SamePlace n →
      (Value.number m).NumericallyEqual (.number n) := fun h => .inr ⟨_, _, rfl, rfl, h⟩
  refine .cons ⟨rfl, ?_⟩ (.cons ⟨rfl, hnumber h.sum⟩ (.cons ⟨rfl, hnumber h.mean⟩
    (.cons ⟨rfl, hnumber h.least⟩ (.cons ⟨rfl, hnumber h.greatest⟩ .nil))))
  rw [h.count]
  exact .inl rfl

variable {records other : RecordSet}

theorem map_label (h : List.Forall₂ Record.Alike records other) (groupField : String) :
    records.map (label groupField) = other.map (label groupField) :=
  map_eq_of_forall₂ h fun _ _ h => label_congr h groupField

/-- The rows of statistics by group are labelled with what the groups are called. -/
theorem map_group_statistics (field groupField : String) (records : RecordSet) :
    (statistics field (some groupField) records).map (·.get? "group") =
      if groupField = "" then [none]
      else (records.map (label groupField)).eraseDups.map fun name => some (.string name) := by
  split
  case isTrue hgroup =>
    subst hgroup
    rfl
  case isFalse hgroup =>
    rw [statistics_eq_map_row field groupField hgroup, List.map_map]
    rfl

section

variable {field : String}

/-- Of records that look alike, those that pass a test which tells no such two apart contribute
numerically equal numbers. -/
theorem samePlace_contributions (h : List.Forall₂ Record.Alike records other)
    (hdate : records.DateFree field) (test : Record → Bool)
    (htest : ∀ r s, r.Alike s → test r = test s) :
    List.Forall₂ Number.SamePlace ((records.filter test).map (contribution field))
      ((other.filter test).map (contribution field)) := by
  have hboth := (List.forall₂_and_left records other).2 ⟨hdate, h⟩
  refine List.rel_map ?_ (List.rel_filter ?_ hboth)
  · exact fun r s hrs => samePlace_contribution hrs.2 hrs.1
  · intro r s hrs
    simp only [htest r s hrs.2]

/-- The statistics of a field that is a date in no record, as a whole or by group, are numerically
equal row by row. -/
theorem statistics_congr (h : List.Forall₂ Record.Alike records other)
    (hdate : records.DateFree field) (groupField : Option String) :
    List.Forall₂ Record.NumericallyEqual (statistics field groupField records)
      (statistics field groupField other) := by
  unfold statistics
  cases groupField.filter fun name => !name.isEmpty with
  | none =>
    have hall := samePlace_contributions h hdate (fun _ => true) fun _ _ _ => rfl
    simp only [List.filter_true] at hall
    exact .cons (forall₂_fields (Aggregate.samePlaces_ofList hall)) .nil
  | some groupField =>
    simp only [groups_eq, map_label h]
    rw [List.map_map, List.map_map, List.forall₂_map_left_iff, List.forall₂_map_right_iff,
      List.forall₂_same]
    intro name _
    have hnumbers := samePlace_contributions h hdate (fun r => label groupField r == name)
      fun r s hrs => by rw [label_congr hrs]
    exact .cons ⟨rfl, .inl rfl⟩ (forall₂_fields (Aggregate.samePlaces_ofList hnumbers))

end

end Summary

end

/-! ## Answers -/

/-- Two record sets that queries by text answer alike. -/
structure RecordSet.AnswerAlike (records other : RecordSet) : Prop where
  /-- Conditions select the same positions, unless the order of a field is asked for which is a
  date in a record of the first set. -/
  filter : ∀ group : Group,
    (∀ c ∈ group.conditions, c.operator.isOrdering = false ∨ records.DateFree c.field) →
      SamePositions records (Query.filter group records) other (Query.filter group other)
  search : ∀ field term caseSensitive,
    SamePositions records (Query.search field term caseSensitive records)
      other (Query.search field term caseSensitive other)
  removeDuplicates : ∀ fields,
    SamePositions records (Edit.removeDuplicates fields records)
      other (Edit.removeDuplicates fields other)
  /-- The groups of any field are the same and come in the same order. -/
  labels : ∀ field groupField,
    (Summary.statistics field (some groupField) records).map (·.get? "group") =
      (Summary.statistics field (some groupField) other).map (·.get? "group")
  /-- Any two fields of the records at any two positions come in the same order. -/
  fieldOrder : ∀ (i j : Nat) (field field' : String),
    Query.fieldOrder (records[i]?.bind (·.get? field)) (records[j]?.bind (·.get? field')) =
      Query.fieldOrder (other[i]?.bind (·.get? field)) (other[j]?.bind (·.get? field'))
  /-- Unless a field is a date in a record of the first set, its statistics as a whole and by any
  field are numerically equal. -/
  statistics : ∀ field groupField, records.DateFree field →
    List.Forall₂ Record.NumericallyEqual (Summary.statistics field groupField records)
      (Summary.statistics field groupField other)

theorem RecordSet.alike_getElem? {records other : RecordSet}
    (h : List.Forall₂ Record.Alike records other) (i : Nat) (field : String) :
    Value.Alike (records[i]?.bind (·.get? field)) (other[i]?.bind (·.get? field)) := by
  induction h generalizing i with
  | nil => exact .refl none
  | cons hrecord _ ih =>
    cases i with
    | zero => exact hrecord.get? field
    | succ i => exact ih i

/-- Queries answer alike of record sets that look alike. -/
theorem RecordSet.answerAlike {records other : RecordSet}
    (h : List.Forall₂ Record.Alike records other) : records.AnswerAlike other where
  filter group hgroup := by
    -- Which records hold no date is known of the first set only, so it goes along with them.
    have hdate : ∀ r ∈ records, ∀ c ∈ group.conditions,
        c.operator.isOrdering = false ∨ ∀ t, r.get? c.field ≠ some (.date t) := by
      intro r hr c hc
      exact (hgroup c hc).imp_right fun hfree => hfree r hr
    exact .filter (map_eq_of_forall₂ ((List.forall₂_and_left records other).2 ⟨hdate, h⟩)
      fun r s hrs => Group.isMet_congr hrs.1 hrs.2)
  search field term caseSensitive := by
    refine .filter (map_eq_of_forall₂ h fun r s hrs => ?_)
    have hvalues : r.values.map (fun v => Query.shows caseSensitive term (some v)) =
        s.values.map fun v => Query.shows caseSensitive term (some v) :=
      map_eq_of_forall₂ hrs.values fun v w hvw => Query.shows_congr hvw caseSensitive term
    have hany : r.values.any (fun v => Query.shows caseSensitive term (some v)) =
        s.values.any fun v => Query.shows caseSensitive term (some v) := by
      simpa using congrArg (List.any · id) hvalues
    rw [hany, Query.shows_congr (hrs.get? field)]
  removeDuplicates fields := by
    refine Edit.samePositions_firsts [] (map_eq_of_forall₂ h fun r s hrs => ?_)
    unfold Edit.distinctKey
    split
    · exact hrs.jsonText
    · have hitems : ∀ name, ((r.get? name).map Value.displayItem).getD [] =
          ((s.get? name).map Value.displayItem).getD [] := fun name => (hrs.get? name).item
      simp only [Value.join, List.map_map, Function.comp_def, hitems]
  labels field groupField := by
    rw [Summary.map_group_statistics, Summary.map_group_statistics, Summary.map_label h]
  fieldOrder i j field field' :=
    Query.fieldOrder_congr (alike_getElem? h i field) (alike_getElem? h j field')
  statistics field groupField hdate := Summary.statistics_congr h hdate groupField

end LooseRecords
