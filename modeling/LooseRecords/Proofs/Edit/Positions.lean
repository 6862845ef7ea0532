import LooseRecords.Edit.Removal
import LooseRecords.Proofs.Edit.Assignment
import LooseRecords.Proofs.Merge
import LooseRecords.Proofs.Selection
import LooseRecords.Query.Page
import Mathlib.Data.List.Induction
import Mathlib.Data.List.Sort

/-!
# Rows by position

Reading, updating and deleting the rows of a selection. The three go about it in different ways: a
reading looks the positions up one by one, an update writes to them in turn, a deletion counts the
rows and leaves some out. `Edit.positional_operations_agree` says that they mean the same rows.
-/

namespace LooseRecords

namespace Selection

/-- For each position below a length, whether it is selected. -/
def marks (selection : String) (length : Nat) : List Bool :=
  (List.range length).map (positions selection length).contains

/-- The selected positions are what is left of all positions below the length. -/
theorem filter_range_contains (selection : String) (length : Nat) :
    (List.range length).filter (positions selection length).contains =
      positions selection length := by
  have hrange : (List.range length).Pairwise (· < ·) := List.pairwise_lt_range
  refine (hrange.filter _).eq_of_mem_iff (pairwise_positions selection length) fun i => ?_
  rw [List.mem_filter, List.mem_range, List.contains_iff_mem]
  exact ⟨And.right, fun h => ⟨lt_of_mem_positions h, h⟩⟩

/-- The marks are at the positions below the length that some span names. -/
theorem getElem?_marks (selection : String) (length i : Nat) :
    (marks selection length)[i]? = some true ↔
      i < length ∧ length ≤ greatest + 1 ∧ ∃ s ∈ spans selection, s.contains i = true := by
  rw [← mem_positions_iff]
  constructor
  · intro h
    obtain ⟨_, hmark⟩ := List.getElem?_eq_some_iff.1 h
    simpa [marks] using hmark
  · intro h
    simp [marks, lt_of_mem_positions h, h]

end Selection

namespace Edit

variable {α : Type}

/-! ## Looking positions up -/

theorem filterMap_getElem?_range (test : Nat → Bool) (items : List α) :
    ((List.range items.length).filter test).filterMap (items[·]?) =
      (items.zipIdx.filter fun entry => test entry.2).map Prod.fst := by
  -- From the right, since one item more leaves the positions in front of it alone.
  induction items using List.reverseRecOn with
  | nil => rfl
  | append_singleton items a ih =>
    have hold : ((List.range items.length).filter test).filterMap ((items ++ [a])[·]?) =
        ((List.range items.length).filter test).filterMap (items[·]?) := by
      apply List.filterMap_congr
      intro i hi
      have hlt : i < items.length := List.mem_range.1 (List.mem_filter.1 hi).1
      rw [List.getElem?_append_left hlt]
    rw [List.length_append, List.length_singleton, List.range_succ, List.filter_append,
      List.filterMap_append, hold, ih, List.zipIdx_append, List.filter_append, List.map_append]
    by_cases ha : test items.length <;> simp [ha]

theorem cells_all (rows : String) (records : RecordSet) :
    Query.cells rows "" records =
      (Selection.positions rows records.length).filterMap (records[·]?) := by
  have hnames : Query.fieldNames "" = [] := by decide
  simp [Query.cells, hnames]

/-- Reading the selected rows and deleting them take the rows apart. -/
theorem merged_selected (rows : String) (records : RecordSet) :
    Merged (Selection.marks rows records.length) records (Query.cells rows "" records)
      (deleteAt rows records) := by
  have hmarks : Selection.marks rows records.length =
      records.zipIdx.map fun entry =>
        (Selection.positions rows records.length).contains entry.2 := by
    rw [Selection.marks, List.range_eq_range', ← List.zipIdx_map_snd 0 records, List.map_map]
    rfl
  have hsplit := (Merged.filter
    (fun entry => (Selection.positions rows records.length).contains entry.2)
    records.zipIdx).map Prod.fst
  rw [List.zipIdx_map_fst] at hsplit
  rw [cells_all, ← Selection.filter_range_contains, filterMap_getElem?_range, hmarks]
  exact hsplit

/-! ## Writing to positions in turn -/

/-- Writes to distinct positions reach each of them once. -/
theorem getElem?_modifyAt (f : α → α) {positions : List Nat} (h : positions.Nodup)
    (items : List α) (i : Nat) :
    (modifyAt f positions items)[i]? = if i ∈ positions then items[i]?.map f else items[i]? := by
  induction positions generalizing items with
  | nil => rfl
  | cons p positions ih =>
    obtain ⟨hp, hrest⟩ := List.nodup_cons.1 h
    have hstep : modifyAt f (p :: positions) items = modifyAt f positions (items.modify p f) := rfl
    rw [hstep, ih hrest, List.getElem?_modify]
    by_cases hi : i = p
    · -- No later write comes back to this position.
      subst hi
      simp [hp]
    · simp [hi, Ne.symm hi]

theorem modifyAt_eq_zipWith (f : α → α) {positions : List Nat} (h : positions.Nodup)
    (items : List α) :
    modifyAt f positions items =
      List.zipWith (fun mark a => if mark then f a else a)
        ((List.range items.length).map positions.contains) items := by
  apply List.ext_getElem?
  intro i
  rw [getElem?_modifyAt f h, List.getElem?_zipWith]
  rcases Nat.lt_or_ge i items.length with hi | hi
  · by_cases hmem : i ∈ positions <;> simp [hi, hmem]
  · simp [List.getElem?_eq_none hi]

theorem updateAt_eq (rows field value : String) (records : RecordSet) :
    updateAt rows field value records =
      ((Query.cells rows "" records).length,
        List.zipWith
          (fun mark r => if mark then r.insert field (Value.ofWritten value) else r)
          (Selection.marks rows records.length) records) := by
  have hasc := Selection.pairwise_positions rows records.length
  have hnodup : (Selection.positions rows records.length).Nodup := hasc.imp Nat.ne_of_lt
  have hfound : ∀ i ∈ Selection.positions rows records.length, (records[i]?).isSome = true := by
    intro i hi
    simpa using Selection.lt_of_mem_positions hi
  rw [cells_all, List.filterMap_length_eq_length.2 hfound, updateAt, modifyAt_eq_zipWith _ hnodup]
  rfl

theorem forall₂_updateAt (rows field value : String) (records : RecordSet) :
    List.Forall₂
      (fun entry after =>
        if entry.1 then Assigned [⟨field, value⟩] entry.2 after else after = entry.2)
      ((Selection.marks rows records.length).zip records)
      (updateAt rows field value records).2 := by
  rw [updateAt_eq, ← List.map_uncurry_zip_eq_zipWith, List.forall₂_map_right_iff,
    List.forall₂_same]
  rintro ⟨mark, r⟩ _
  cases mark
  · rfl
  · exact assigned_assign [⟨field, value⟩] r

/-! ## The rows of a selection -/

/-- Reading, updating and deleting the rows of a selection mean the same rows: those that one of
its spans names. The rows that are read and the rows that a deletion leaves make up the input by
position, both in order. An update counts the rows that are read and assigns the field in each of
them; all other rows are what they were. So a deletion leaves the same rows after the update as
before it, and a reading returns after it the rows that it returned before with the field
assigned. -/
theorem positional_operations_agree (rows field value : String) (records : RecordSet) :
    let marks := Selection.marks rows records.length
    let read := Query.cells rows "" records
    let rest := deleteAt rows records
    let (count, after) := updateAt rows field value records
    (∀ i, marks[i]? = some true ↔ i < records.length ∧ records.length ≤ Selection.greatest + 1 ∧
      ∃ s ∈ Selection.spans rows, s.contains i = true) ∧
      Merged marks records read rest ∧
      read.Sublist records ∧ rest.Sublist records ∧
      read.length + rest.length = records.length ∧
      count = read.length ∧ after.length = records.length ∧
      List.Forall₂
        (fun entry after =>
          if entry.1 then Assigned [⟨field, value⟩] entry.2 after else after = entry.2)
        (marks.zip records) after ∧
      deleteAt rows after = rest ∧
      Query.cells rows "" after = read.map (·.insert field (Value.ofWritten value)) := by
  intro marks read rest
  rw [updateAt_eq]
  have hsplit : Merged marks records read rest := merged_selected rows records
  have hlength : (List.zipWith
      (fun mark r => if mark then r.insert field (Value.ofWritten value) else r)
      marks records).length = records.length := by
    simp [marks, Selection.marks]
  have hassigned := hsplit.mapFirst (·.insert field (Value.ofWritten value))
  have hafter := merged_selected rows (List.zipWith
      (fun mark r => if mark then r.insert field (Value.ofWritten value) else r) marks records)
  rw [hlength] at hafter
  obtain ⟨hread, hrest⟩ := hafter.unique hassigned
  have hrows := forall₂_updateAt rows field value records
  rw [updateAt_eq] at hrows
  have hmarks := Selection.getElem?_marks rows records.length
  exact ⟨hmarks, hsplit, hsplit.sublist_first, hsplit.sublist_second, hsplit.length_add, rfl, hlength,
    hrows, hrest, hread⟩

end Edit

end LooseRecords
