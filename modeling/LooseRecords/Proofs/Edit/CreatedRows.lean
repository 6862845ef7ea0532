import LooseRecords.Edit.Creation
import LooseRecords.Proofs.Edit.Positions
import LooseRecords.Proofs.Number.Numeral
import LooseRecords.Proofs.Text.Blank

/-!
# Created rows

The rows that a creation adds stand next to each other, so one span names them. Selected by it they
are the records of the payload, and deleting them undoes the creation: `Edit.created_rows`.
-/

namespace LooseRecords

/-! ## Written selections -/

namespace Selection

/-- The selection of the positions from the first to the last, written in decimal. -/
def between (first last : Nat) : String := toString first ++ "-" ++ toString last

theorem toList_between (first last : Nat) :
    (between first last).toList = Nat.toDigits 10 first ++ '-' :: Nat.toDigits 10 last := by
  simp [between, Nat.toString_eq_repr, Nat.toList_repr]

/-- A position written in decimal is read back. -/
theorem leadingPosition?_toDigits {n : Nat} (h : n ≤ greatest) :
    leadingPosition? (Nat.toDigits 10 n) = some n := by
  have hdigits := AllDigits.toDigits n
  have htrim : Text.trim (Nat.toDigits 10 n) = Nat.toDigits 10 n :=
    Text.trim_of_no_blank fun c hc => Text.isBlank_of_numeral (.inl (hdigits c hc))
  have hsign : (Nat.toDigits 10 n).head? ≠ some '+' := by
    intro hhead
    have hplus := hdigits '+' (List.mem_of_head? hhead)
    cases hplus
  have hrun : (Nat.toDigits 10 n).takeWhile Char.isDigit = Nat.toDigits 10 n := by
    have hend : ∀ c ∈ ([] : List Char).head?, c.isDigit = false := by simp
    simpa using (hdigits.takeWhile_append hend).1
  have hempty : (Nat.toDigits 10 n).isEmpty = false := by simp
  simp only [leadingPosition?, htrim, if_neg hsign, hrun, hempty, Bool.false_eq_true, if_false,
    Numeral.natural_toDigits, Nat.min_eq_left h]

/-- A written selection names one span. -/
theorem spans_between {first last : Nat} (hfirst : first ≤ greatest) (hlast : last ≤ greatest) :
    spans (between first last) = [⟨first, last⟩] := by
  have hnot : ∀ (c : Char) (n : Nat), c.isDigit = false → c ∉ Nat.toDigits 10 n := by
    intro c n hc hmem
    rw [AllDigits.toDigits n c hmem] at hc
    cases hc
  have hcomma : ',' ∉ Nat.toDigits 10 first ++ '-' :: Nat.toDigits 10 last := by
    simp [hnot]
  have htrim : Text.trim (Nat.toDigits 10 first ++ '-' :: Nat.toDigits 10 last) =
      Nat.toDigits 10 first ++ '-' :: Nat.toDigits 10 last := by
    apply Text.trim_of_no_blank
    intro c hc
    apply Text.isBlank_of_numeral
    rcases List.mem_append.1 hc with hdigit | hrest
    · exact .inl (AllDigits.toDigits first c hdigit)
    · rcases List.mem_cons.1 hrest with rfl | hdigit
      · exact .inr (by decide)
      · exact .inl (AllDigits.toDigits last c hdigit)
  have hpieces : (Nat.toDigits 10 first ++ '-' :: Nat.toDigits 10 last).splitOn '-' =
      [Nat.toDigits 10 first, Nat.toDigits 10 last] := by
    rw [List.splitOn_append_cons_self_of_not_mem (hnot '-' first rfl),
      List.splitOn_eq_singleton (hnot '-' last rfl)]
  have hspan : span? (Nat.toDigits 10 first ++ '-' :: Nat.toDigits 10 last) =
      some ⟨first, last⟩ := by
    rw [span?, hpieces]
    simp only [leadingPosition?_toDigits hfirst, leadingPosition?_toDigits hlast]
  rw [spans, Text.listed, toList_between, List.splitOn_eq_singleton hcomma]
  simp [htrim, hspan]

/-- Of a length that leaves no position without a name, a written selection marks the positions from
its first to its last. -/
theorem marks_between {first last length : Nat} (hfirst : first ≤ greatest)
    (hlast : last ≤ greatest) (hlength : length ≤ greatest + 1) :
    marks (between first last) length =
      (List.range length).map fun i => decide (first ≤ i ∧ i ≤ last) := by
  apply List.map_congr_left
  intro i hi
  have hmem := mem_positions_iff (between first last) length i
  rw [spans_between hfirst hlast] at hmem
  simp only [List.mem_singleton, exists_eq_left, Span.contains_iff] at hmem
  rw [Bool.eq_iff_iff, List.contains_iff_mem, decide_eq_true_iff, hmem]
  exact ⟨fun h => h.2.2, fun h => ⟨List.mem_range.1 hi, hlength, h⟩⟩

end Selection

namespace Edit

open Selection (between)

/-! ## Rows in the middle -/

/-- Marks that are all the same. -/
theorem map_range_eq_replicate {count : Nat} {test : Nat → Bool} {mark : Bool}
    (h : ∀ i < count, test i = mark) : (List.range count).map test = List.replicate count mark := by
  refine List.eq_replicate_iff.2 ⟨by simp, ?_⟩
  intro b hb
  obtain ⟨i, hi, rfl⟩ := List.mem_map.1 hb
  exact h i (List.mem_range.1 hi)

/-- The marks of positions in the middle of others. -/
theorem marks_middle (before : Nat) {middle : Nat} (h : 0 < middle) (behind : Nat) :
    (List.range (before + middle + behind)).map
        (fun i => decide (before ≤ i ∧ i ≤ before + middle - 1)) =
      List.replicate before false ++ List.replicate middle true ++
        List.replicate behind false := by
  rw [List.range_add, List.range_add, List.map_append, List.map_append, List.map_map, List.map_map,
    map_range_eq_replicate, map_range_eq_replicate, map_range_eq_replicate]
  all_goals
    intro i hi
    simp only [Function.comp_apply, decide_eq_true_iff, decide_eq_false_iff_not]
    omega

/-- The rows between two others are those that a selection from the first to the last of them reads
and deletes. -/
theorem selected_between (before : RecordSet) {middle : RecordSet} (behind : RecordSet)
    (hne : middle ≠ []) (hlength : (before ++ middle ++ behind).length ≤ Selection.greatest) :
    let rows := between before.length (before.length + middle.length - 1)
    Query.cells rows "" (before ++ middle ++ behind) = middle ∧
      deleteAt rows (before ++ middle ++ behind) = before ++ behind := by
  intro rows
  have hpos : 0 < middle.length := List.length_pos_iff.2 hne
  have hlengths : (before ++ middle ++ behind).length =
      before.length + middle.length + behind.length := by
    simp only [List.length_append]
  rw [hlengths] at hlength
  have hmarks : Selection.marks rows (before ++ middle ++ behind).length =
      List.replicate before.length false ++ List.replicate middle.length true ++
        List.replicate behind.length false := by
    rw [hlengths, Selection.marks_between (by omega) (by omega) (by omega),
      marks_middle _ hpos]
  have hmerged := ((Merged.allSecond before).append (Merged.allFirst middle)).append
    (Merged.allSecond behind)
  rw [← hmarks] at hmerged
  simpa using (merged_selected rows (before ++ middle ++ behind)).unique hmerged

/-- A creation is undone by deleting what it created. A payload that describes records is accepted,
at either end of a record set; the rows that are new, selected from the first to the last of them,
are the records of the payload in order, and without them the record set is what it was. -/
theorem created_rows {payload : Json} {new : RecordSet}
    (hpayload : payloadRecords payload = .ok new) (hne : new ≠ []) {records : RecordSet}
    (hlength : records.length + new.length ≤ Selection.greatest) :
    (∃ appended, create payload .atEnd records = .ok appended ∧
      let rows := between records.length (records.length + new.length - 1)
      deleteAt rows appended = records ∧ Query.cells rows "" appended = new) ∧
    (∃ prepended, create payload .atStart records = .ok prepended ∧
      let rows := between 0 (new.length - 1)
      deleteAt rows prepended = records ∧ Query.cells rows "" prepended = new) := by
  have hcreate : ∀ place, create payload place records =
      .ok (if place = .atEnd then records ++ new else new ++ records) := by
    intro place
    unfold create
    rw [hpayload]
    cases place <;> rfl
  have hend := selected_between records [] hne (by simpa using hlength)
  have hstart := selected_between [] records hne (by simpa [Nat.add_comm] using hlength)
  simp only [List.append_nil] at hend
  simp only [List.length_nil, List.nil_append, Nat.zero_add] at hstart
  exact ⟨⟨_, hcreate .atEnd, hend.2, hend.1⟩, ⟨_, hcreate .atStart, hstart.2, hstart.1⟩⟩

/-- A payload of two records as text, for a record set with one. -/
theorem created_rows_pair :
    let payload : Json := .string "[\x7b\"a\":null\x7d, \x7b\x7d]"
    let new : RecordSet := [⟨[("a", .null)]⟩, ⟨[]⟩]
    let records : RecordSet := [⟨[("b", .bool true)]⟩]
    payloadRecords payload = .ok new ∧ new ≠ [] ∧
      records.length + new.length ≤ Selection.greatest ∧
      between 1 2 = "1-2" ∧ between 0 1 = "0-1" ∧
      (∃ appended, create payload .atEnd records = .ok appended ∧
        deleteAt (between 1 2) appended = records ∧
        Query.cells (between 1 2) "" appended = new) ∧
      (∃ prepended, create payload .atStart records = .ok prepended ∧
        deleteAt (between 0 1) prepended = records ∧
        Query.cells (between 0 1) "" prepended = new) := by
  intro payload new records
  have hpayload : payloadRecords payload = .ok new := by decide +kernel
  have hne : new ≠ [] := by decide
  have hlength : records.length + new.length ≤ Selection.greatest := by decide
  exact ⟨hpayload, hne, hlength, by decide +kernel, by decide +kernel,
    created_rows hpayload hne hlength⟩

end Edit

end LooseRecords
