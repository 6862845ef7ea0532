import LooseRecords.Proofs.Calendar.Chronology
import LooseRecords.Proofs.Query.Stable

/-!
# Records in the order of their dates

Dates have no comparison of their own, they are sorted by their texts. With years of four digits
that is the order of time, and so records are sorted by time: `Query.sort_chronological`.
-/

namespace LooseRecords

namespace Query

/-- Two dates are ordered as their instants, as long as their years have four digits. -/
theorem fieldOrder_date {a b : Instant} (ha : Instant.IsPlainYear a.year)
    (hb : Instant.IsPlainYear b.year) :
    fieldOrder (some (.date a)) (some (.date b)) = compare a.millis b.millis := by
  rw [fieldOrder_of_text (.inl rfl)]
  exact Instant.collate_iso ha hb

/-- In every record the field holds a date of a year with four digits, at this instant. -/
def HoldsDates (field : String) (records : RecordSet) (instant : Record → Instant) : Prop :=
  ∀ r ∈ records, r.get? field = some (.date (instant r)) ∧ Instant.IsPlainYear (instant r).year

/-- Records by the instants that they hold. -/
def chronological (instant : Record → Instant) (a b : Record) : Ordering :=
  compare (instant a).millis (instant b).millis

instance (instant : Record → Instant) : Std.OrientedCmp (chronological instant) :=
  inferInstanceAs (Std.OrientedCmp (compareOn fun r => (instant r).millis))

section

variable {field : String} {records : RecordSet} {instant : Record → Instant}

theorem recordOrder_of_holdsDates (h : HoldsDates field records instant) {a b : Record}
    (ha : a ∈ records) (hb : b ∈ records) :
    recordOrder field .ascending a b = chronological instant a b := by
  obtain ⟨hfield, hyear⟩ := h a ha
  obtain ⟨hfield', hyear'⟩ := h b hb
  show fieldOrder (a.get? field) (b.get? field) = _
  rw [hfield, hfield', fieldOrder_date hyear hyear', chronological]

theorem consistentOn_dates (h : HoldsDates field records instant) :
    ConsistentOn (recordOrder field .ascending) records := by
  refine consistentOn_texts fun r hr => ?_
  rw [(h r hr).1]
  rfl

/-- Sorted upwards, dates rise. -/
theorem arranged_ascending (h : HoldsDates field records instant) :
    ∃ sorted, sort field .ascending records = some sorted ∧
      Arranged (chronological instant) records sorted := by
  obtain ⟨sorted, hsorted, harranged⟩ := arranged_sort (consistentOn_dates h) .ascending
  exact ⟨sorted, hsorted, harranged.congr fun _ ha _ hb => recordOrder_of_holdsDates h ha hb⟩

/-- Sorted downwards, dates fall. -/
theorem arranged_descending (h : HoldsDates field records instant) :
    ∃ sorted, sort field .descending records = some sorted ∧
      Arranged (fun a b => chronological instant b a) records sorted := by
  obtain ⟨sorted, hsorted, harranged⟩ := arranged_sort (consistentOn_dates h) .descending
  rw [recordOrder_descending] at harranged
  exact ⟨sorted, hsorted, harranged.congr fun _ ha _ hb => recordOrder_of_holdsDates h hb ha⟩

end

/-- Two dates whose years have four digits are ordered as their instants. Records that hold such
dates are sorted by time, upwards or downwards, and those of one instant stay as they stood. -/
theorem sort_chronological :
    (∀ a b : Instant, Instant.IsPlainYear a.year → Instant.IsPlainYear b.year →
        fieldOrder (some (.date a)) (some (.date b)) = compare a.millis b.millis) ∧
      ∀ field records instant, HoldsDates field records instant →
        (∃ sorted, sort field .ascending records = some sorted ∧
          ∀ out, Arranged (chronological instant) records out ↔ out = sorted) ∧
        ∃ sorted, sort field .descending records = some sorted ∧
          ∀ out, Arranged (fun a b => chronological instant b a) records out ↔ out = sorted := by
  refine ⟨fun _ _ => fieldOrder_date, fun field records instant h => ⟨?_, ?_⟩⟩
  · obtain ⟨sorted, hsorted, harranged⟩ := arranged_ascending h
    refine ⟨sorted, hsorted, fun out => ⟨fun hout => hout.unique harranged, ?_⟩⟩
    rintro rfl
    exact harranged
  · obtain ⟨sorted, hsorted, harranged⟩ := arranged_descending h
    refine ⟨sorted, hsorted, fun out => ⟨fun hout => hout.unique harranged, ?_⟩⟩
    rintro rfl
    exact harranged

/-- Three dates, the first of which lies before 1970, and one of them twice. -/
theorem sort_chronological_epoch :
    let row (millis : Int) (i : Nat) : Record :=
      ⟨[("t", .date ⟨millis⟩), ("i", .number (.ofNat i))]⟩
    let instant (r : Record) : Instant :=
      match r.get? "t" with
      | some (.date t) => t
      | _ => ⟨0⟩
    let records : RecordSet := [row 951827696789 1, row (-1) 2, row 951827696789 3, row 0 4]
    fieldOrder (some (.date ⟨-1⟩)) (some (.date ⟨951827696789⟩)) = .lt ∧
      HoldsDates "t" records instant ∧
      sort "t" .ascending records =
        some [row (-1) 2, row 0 4, row 951827696789 1, row 951827696789 3] ∧
      sort "t" .descending records =
        some [row 951827696789 1, row 951827696789 3, row 0 4, row (-1) 2] := by
  intro row instant records
  have hdates : HoldsDates "t" records instant := by
    unfold HoldsDates Instant.IsPlainYear
    decide +kernel
  have hyear : Instant.IsPlainYear (Instant.year ⟨-1⟩) ∧
      Instant.IsPlainYear (Instant.year ⟨951827696789⟩) := by
    unfold Instant.IsPlainYear
    decide +kernel
  obtain ⟨hfields, hrecords⟩ := sort_chronological
  obtain ⟨⟨up, hup, hups⟩, ⟨down, hdown, hdowns⟩⟩ := hrecords "t" records instant hdates
  rw [hup, hdown]
  refine ⟨hfields _ _ hyear.1 hyear.2, hdates, congrArg some ((hups _).1 ?_).symm,
    congrArg some ((hdowns _).1 ?_).symm⟩
  · exact ⟨by decide +kernel, by decide +kernel, by decide +kernel⟩
  · exact ⟨by decide +kernel, by decide +kernel, by decide +kernel⟩

end Query

end LooseRecords
