import LooseRecords.Load.File
import LooseRecords.Proofs.Query.Alike
import LooseRecords.Proofs.Value.Stored

/-!
# Numbers of typed and untyped records

Records may hold numerals as texts or with the type that these suggest. Orderings and statistics of
a field as a whole see of it only the number that it stands for, so to them it makes no difference:
`Load.typed_or_text`.
-/

namespace LooseRecords

/-! ## What the number of a field decides -/

theorem Condition.isMet_of_asNumber_eq {c : Condition} (hc : c.operator.isOrdering = true)
    {r s : Record} (h : Value.asNumber (r.get? c.field) = Value.asNumber (s.get? c.field))
    (caseSensitive : Bool) : c.isMet caseSensitive r = c.isMet caseSensitive s := by
  unfold isMet
  cases hop : c.operator with
  | greaterThan | greaterOrEqual | lessThan | lessOrEqual => simp only [onNumbers, h]
  | equals | notEquals | contains | notContains | startsWith | endsWith | isEmpty | isNotEmpty
  | unknown => exact absurd hc (by rw [hop]; decide)

/-- Two records whose field stands for the same number. -/
def Record.SameNumber (field : String) (r s : Record) : Prop :=
  Value.asNumber (r.get? field) = Value.asNumber (s.get? field)

/-- The statistics of a field as a whole depend on the numbers that it stands for. -/
theorem Summary.statistics_of_sameNumber {field : String} {records other : RecordSet}
    (h : List.Forall₂ (Record.SameNumber field) records other) :
    statistics field none records = statistics field none other := by
  have hcontributions : records.map (contribution field) = other.map (contribution field) :=
    map_eq_of_forall₂ h fun r s hrs => by rw [contribution, contribution, hrs]
  show [_] = [_]
  rw [hcontributions]

/-! ## Fields stored with their type -/

namespace Record

/-- The record with a field typed if it holds a text that is stored as a number or as a text. -/
def typed (field : String) (r : Record) : Record :=
  match r.get? field with
  | some (.string raw) =>
    if (Value.ofWritten raw).isNumberOrText then r.insert field (Value.ofWritten raw) else r
  | _ => r

theorem get?_insert_self (r : Record) (field : String) (value : Value) :
    (r.insert field value).get? field = some value := by
  show Fields.get? (Fields.insert r.fields field value) field = some value
  rw [Fields.get?_insert, if_pos rfl]

theorem sameNumber_typed (field : String) (r : Record) : SameNumber field (r.typed field) r := by
  unfold SameNumber typed
  split
  case h_1 raw hfield =>
    split
    case isTrue hstored => rw [get?_insert_self, hfield, Value.asNumber_ofWritten hstored]
    case isFalse => rfl
  case h_2 => rfl

/-- What a value is if the cell that it is read from is typed. -/
def typedCell : Value → Value
  | .string raw => .ofWritten raw
  | value => value

/-- The record with all its texts typed. -/
def typedCells (r : Record) : Record := ⟨Fields.mapEntries typedCell r.fields⟩

theorem get?_typedCells (r : Record) (name : String) :
    r.typedCells.get? name = (r.get? name).map typedCell :=
  Fields.get?_mapEntries typedCell r.fields name

/-- Wherever the field is a text, it is one that is stored as a number or as a text. -/
def NumberOrText (field : String) (r : Record) : Prop :=
  ∀ raw, r.get? field = some (.string raw) → (Value.ofWritten raw).isNumberOrText = true

theorem sameNumber_typedCells {field : String} {r : Record} (h : r.NumberOrText field) :
    SameNumber field r.typedCells r := by
  rw [SameNumber, get?_typedCells]
  match hfield : r.get? field with
  | some (.string raw) => exact Value.asNumber_ofWritten (h raw hfield)
  | none | some .null | some (.bool _) | some (.number _) | some (.date _) | some (.array _)
  | some (.object _) => rfl

end Record

namespace Csv

/-- A row is read as the same record whether or not its cells are typed, but for the types. -/
theorem record_typed (header row : List String) :
    record true header row = (record false header row).typedCells := by
  have hentries : ((header.zip row).map fun cell => (cell.1, Value.ofWritten cell.2)) =
      Fields.mapEntries Record.typedCell
        ((header.zip row).map fun cell => (cell.1, Value.string cell.2)) := by
    simp [Fields.mapEntries, Record.typedCell, Function.comp_def]
  show Record.ofList ((header.zip row).map fun cell => (cell.1, Value.ofWritten cell.2)) =
    Record.typedCells (Record.ofList _)
  rw [hentries, Record.ofList, Fields.ofList_mapEntries]
  rfl

/-- A text is loaded as the same records whether or not its cells are typed, but for the types. -/
theorem load_typed (strict : Bool) (bytes : List UInt8) :
    load true strict bytes = (load false strict bytes).map (·.map Record.typedCells) := by
  unfold load
  cases rows bytes with
  | nil => rfl
  | cons first rest =>
    dsimp only
    cases first.mapM cell with
    | error failure => rfl
    | ok header =>
      cases rest.mapM (cells strict first.length) with
      | error failure => rfl
      | ok rows =>
        show Except.ok (rows.map (record true header)) =
          Except.ok ((rows.map (record false header)).map Record.typedCells)
        rw [List.map_map, funext (record_typed header)]
        rfl

end Csv

namespace Load

/-- The statistics of what was loaded, if it was. -/
def statistics (field : String) (loaded : Except LoadFailure RecordSet) :
    Except LoadFailure RecordSet := loaded.map (Summary.statistics field none)

theorem statistics_typedCells {field : String} {loaded : Except LoadFailure RecordSet}
    (h : ∀ records, loaded = .ok records → ∀ r ∈ records, r.NumberOrText field) :
    statistics field (loaded.map (·.map Record.typedCells)) = statistics field loaded := by
  cases loaded with
  | error failure => rfl
  | ok records =>
    have hsame : List.Forall₂ (Record.SameNumber field) (records.map Record.typedCells) records := by
      rw [List.forall₂_map_left_iff, List.forall₂_same]
      exact fun r hr => Record.sameNumber_typedCells (h records rfl r hr)
    exact congrArg Except.ok (Summary.statistics_of_sameNumber hsame)

/-- It makes no numeric difference whether a numeral is stored with its type or as text. A text that
is stored as a number stands for that number. If a field is typed wherever it holds a text that is
stored as a number or as a text, then each record meets the same orderings of the field, and its
statistics as a whole are the same, however many of the records are changed. So a column of a CSV
text or file in which every text is stored as a number or as a text has the same statistics whether
or not the cells are typed, and loading fails alike. -/
theorem typed_or_text :
    (∀ raw n, Value.ofWritten raw = .number n → Number.read raw.toList = n) ∧
    (∀ (c : Condition) (caseSensitive : Bool) (r : Record), c.operator.isOrdering = true →
      c.isMet caseSensitive (r.typed c.field) = c.isMet caseSensitive r) ∧
    (∀ field (changed records : RecordSet),
      List.Forall₂ (fun s r => s = r ∨ s = r.typed field) changed records →
        Summary.statistics field none changed = Summary.statistics field none records) ∧
    (∀ field strict bytes,
      (∀ records, Csv.load false strict bytes = .ok records →
        ∀ r ∈ records, r.NumberOrText field) →
        statistics field (Csv.load true strict bytes) =
          statistics field (Csv.load false strict bytes)) ∧
    ∀ field path format bytes,
      (∀ records, (file path format false bytes).1 = .ok records →
        ∀ r ∈ records, r.NumberOrText field) →
        statistics field (file path format true bytes).1 =
          statistics field (file path format false bytes).1 := by
  have hcsv : ∀ field strict bytes,
      (∀ records, Csv.load false strict bytes = .ok records →
        ∀ r ∈ records, r.NumberOrText field) →
        statistics field (Csv.load true strict bytes) =
          statistics field (Csv.load false strict bytes) := by
    intro field strict bytes h
    rw [Csv.load_typed, statistics_typedCells h]
  refine ⟨fun raw n => Value.read_of_ofWritten, fun c caseSensitive r hc => ?_,
    fun field changed records h => ?_, hcsv, fun field path format bytes h => ?_⟩
  · exact Condition.isMet_of_asNumber_eq hc (r.sameNumber_typed c.field) caseSensitive
  · refine Summary.statistics_of_sameNumber (h.imp fun s r hsr => ?_)
    rcases hsr with rfl | rfl
    · rfl
    · exact r.sameNumber_typed field
  · unfold file at h ⊢
    cases hformat : formatOf path format with
    | error failure => rfl
    | ok format =>
      rw [hformat] at h
      -- Only a table that exists is read one way or the other.
      match format, bytes with
      | .csv, some bytes => exact hcsv field false bytes h
      | .csv, none | .json, none | .json, some _ => rfl

/-- A column with a number between blanks, a text, and a numeral that is stored as text for its
exponent. -/
theorem typed_or_text_column :
    let bytes := some ("n,v\na, 007\nb,abc\nc,1e5\n".toList.map Csv.byte)
    let condition : Condition := { field := "v", operator := .greaterThan, operand := some "6" }
    let r : Record := ⟨[("n", .string "a"), ("v", .string " 007")]⟩
    (file "t.csv" none false bytes).1 = .ok
        [r, ⟨[("n", .string "b"), ("v", .string "abc")]⟩,
          ⟨[("n", .string "c"), ("v", .string "1e5")]⟩] ∧
      Value.ofWritten " 007" = .number (.ofNat 7) ∧ Number.read " 007".toList = .ofNat 7 ∧
      r.typed "v" = ⟨[("n", .string "a"), ("v", .number (.ofNat 7))]⟩ ∧
      condition.isMet false (r.typed "v") = condition.isMet false r ∧
      Summary.statistics "v" none [r.typed "v", r] = Summary.statistics "v" none [r, r] ∧
      statistics "v" (file "t.csv" none true bytes).1 =
        statistics "v" (file "t.csv" none false bytes).1 := by
  intro bytes condition r
  obtain ⟨hread, hordering, hstatistics, -, hfile⟩ := typed_or_text
  have hloaded : (file "t.csv" none false bytes).1 = .ok
      [r, ⟨[("n", .string "b"), ("v", .string "abc")]⟩,
        ⟨[("n", .string "c"), ("v", .string "1e5")]⟩] := by rfl
  have hstored : Value.ofWritten " 007" = .number (.ofNat 7) := by decide +kernel
  have htyped : r.typed "v" = ⟨[("n", .string "a"), ("v", .number (.ofNat 7))]⟩ := by
    decide +kernel
  refine ⟨hloaded, hstored, hread _ _ hstored, htyped, hordering condition false r rfl,
    hstatistics "v" _ _ (.cons (.inr rfl) (.cons (.inl rfl) .nil)), hfile _ _ _ _ ?_⟩
  intro records hrecords s hs raw hraw
  cases hloaded.symm.trans hrecords
  have hcells : ∀ raw ∈ [" 007", "abc", "1e5"], (Value.ofWritten raw).isNumberOrText = true := by
    decide +kernel
  refine hcells raw ?_
  simp only [List.mem_cons, List.not_mem_nil, or_false] at hs
  rcases hs with rfl | rfl | rfl <;> cases hraw <;> simp

end Load

end LooseRecords
