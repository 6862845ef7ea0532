import LooseRecords.Proofs.Load.Typed

/-!
# Headers of tables

Which cells the rows of a table have under the names of its header, however often a name is repeated
there and however long the rows are. Typed or not, a table has the same cells under the same names:
`Csv.cells_by_header`.
-/

namespace LooseRecords

namespace Csv

/-- The cells are those that a row has under the names of a header. -/
structure NamedCells (header row : List String) (cells : Fields String) : Prop where
  /-- The names as far as the row goes, each where it first comes. -/
  names : Fields.names cells = (header.take (min header.length row.length)).eraseDups
  /-- Of the columns with one name the last one that the row reaches counts. -/
  cell : ∀ name raw, Fields.get? cells name = some raw ↔
    ∃ i : Nat, header[i]? = some name ∧ row[i]? = some raw ∧
      ∀ j, i < j → j < row.length → header[j]? ≠ some name

/-- The cells of a row under the names of a header. -/
def named (header row : List String) : Fields String := Fields.ofList (header.zip row)

theorem names_zip (header row : List String) :
    Fields.names (header.zip row) = header.take (min header.length row.length) := by
  rw [List.zip_eq_zip_take_min]
  exact List.map_fst_zip (by simp)

theorem namedCells_named (header row : List String) : NamedCells header row (named header row) where
  names := by rw [named, Fields.names_ofList, names_zip]
  cell := by
    intro name raw
    rw [named, Fields.get?_ofList, Fields.last?_eq_some_iff]
    constructor
    · rintro ⟨i, hi, hlast⟩
      obtain ⟨hname, hraw⟩ := List.getElem?_zip_eq_some.1 hi
      refine ⟨i, hname, hraw, fun j hij hj hagain => ?_⟩
      have hreached : row[j]? = some row[j] := List.getElem?_eq_getElem hj
      exact hlast j row[j] hij (List.getElem?_zip_eq_some.2 ⟨hagain, hreached⟩)
    · rintro ⟨i, hname, hraw, hlast⟩
      refine ⟨i, List.getElem?_zip_eq_some.2 ⟨hname, hraw⟩, fun j b hij hj => ?_⟩
      obtain ⟨hagain, hreached⟩ := List.getElem?_zip_eq_some.1 hj
      obtain ⟨hlength, -⟩ := List.getElem?_eq_some_iff.1 hreached
      exact hlast j hij hlength hagain

/-! ## Records -/

/-- The record of a row has the cells of the row under its names, typed or as texts. -/
theorem record_eq (typed : Bool) (header row : List String) :
    record typed header row =
      ⟨Fields.mapEntries (fun raw => if typed then Value.ofWritten raw else .string raw)
        (named header row)⟩ :=
  congrArg Record.mk
    (Fields.ofList_mapEntries (fun raw => if typed then Value.ofWritten raw else .string raw)
      (header.zip row))

/-! ## Tables -/

/-- The header that a text delivers and the rows under it. A text without any row delivers
neither. -/
def delivered (strict : Bool) (bytes : List UInt8) :
    Except LoadFailure (List String × List (List String)) :=
  match rows bytes with
  | [] => .ok ([], [])
  | first :: rest => do
    let header ← first.mapM cell
    let rows ← rest.mapM (cells strict first.length)
    return (header, rows)

theorem load_eq_delivered (typed strict : Bool) (bytes : List UInt8) :
    load typed strict bytes =
      (delivered strict bytes).map fun (header, rows) => table typed header rows := by
  unfold load delivered
  cases rows bytes with
  | nil => rfl
  | cons first rest =>
    dsimp only
    cases first.mapM cell with
    | error failure => rfl
    | ok header => cases rest.mapM (cells strict first.length) <;> rfl

/-- A row is one record, in its place. Its fields are the names of the header as far as the row
goes, each where it first comes, and a repeated name has the cell of its last column; so cells
beyond the header are dropped, and names beyond the row are missing. This holds of every header and
all rows, and so of what a text delivers. Whether the cells are typed or not makes no difference to
the fields; the typed records are the others with every cell typed, and loading fails alike. -/
theorem cells_by_header :
    (∀ header rows, ∃ tables, List.Forall₂ (NamedCells header) rows tables ∧
      table false header rows = tables.map (fun cells => ⟨Fields.mapEntries .string cells⟩) ∧
      table true header rows = tables.map (fun cells => ⟨Fields.mapEntries .ofWritten cells⟩)) ∧
    ∀ strict bytes,
      (∀ typed, load typed strict bytes =
        (delivered strict bytes).map fun (header, rows) => table typed header rows) ∧
      load true strict bytes = (load false strict bytes).map (·.map Record.typedCells) := by
  refine ⟨fun header rows => ⟨rows.map (named header), ?_, ?_, ?_⟩, fun strict bytes => ⟨?_, ?_⟩⟩
  · rw [List.forall₂_map_right_iff, List.forall₂_same]
    exact fun row _ => namedCells_named header row
  · rw [table, funext (record_eq false header), List.map_map]
    rfl
  · rw [table, funext (record_eq true header), List.map_map]
    rfl
  · exact fun typed => load_eq_delivered typed strict bytes
  · exact load_typed strict bytes

/-- A row beyond the header and a row that is shorter, under a repeated name and an empty one. -/
example : table false ["a", "", "a"] [["1", "2", "3", "4"], ["5"]] =
    [⟨[("a", .string "3"), ("", .string "2")]⟩, ⟨[("a", .string "5")]⟩] := by decide

end Csv

end LooseRecords
