import LooseRecords.Proofs.Load.Lines

/-!
# Lines that cannot be read

A text of records on lines is refused at the first line that is no JSON document, and the failure
names a line. `Load.json_badLine` says which one: lines are counted from the first one that is not
blank, so blank lines in front of the text make the number too small.
-/

namespace LooseRecords

namespace Load

/-- A trimmed line that holds something, but no JSON document. -/
def isBad (line : List Char) : Bool := !line.isEmpty && (Json.read? line).isNone

/-- The number, counted from 1, of the first line of a text that cannot be read. -/
def firstBad? (text : List Char) : Option Nat :=
  ((Text.trimmedLines text).findIdx? isBad).map (· + 1)

/-! ## Reading line after line -/

theorem lineValues_cons_eq_error_iff (number : Nat) (line : List Char) (lines : List (List Char))
    (failure : LoadFailure) :
    lineValues number (line :: lines) = .error failure ↔
      if isBad (Text.trim line) then failure = .badLine number
      else lineValues (number + 1) lines = .error failure := by
  rw [lineValues, isBad]
  cases hline : (Text.trim line).isEmpty with
  | true => simp
  | false =>
    cases hread : Json.read? (Text.trim line) with
    | none => simp [eq_comm]
    | some value =>
      simp only [Bool.false_eq_true, if_false, Option.isNone_some, Bool.and_false]
      cases lineValues (number + 1) lines <;> simp [Except.map]

/-- Lines are read one after the other, and the first one that cannot be read is the failure. -/
theorem lineValues_eq_error_iff (number : Nat) (lines : List (List Char)) (failure : LoadFailure) :
    lineValues number lines = .error failure ↔
      ∃ i, (lines.map Text.trim).findIdx? isBad = some i ∧ failure = .badLine (number + i) := by
  induction lines generalizing number with
  | nil => simp [lineValues]
  | cons line lines ih =>
    rw [lineValues_cons_eq_error_iff, List.map_cons, List.findIdx?_cons]
    split
    case isTrue => simp
    case isFalse =>
      rw [ih]
      constructor
      · rintro ⟨i, hi, rfl⟩
        exact ⟨i + 1, by rw [hi]; rfl, by rw [Nat.add_right_comm]; rfl⟩
      · rintro ⟨j, hj, rfl⟩
        obtain ⟨i, hi, rfl⟩ := Option.map_eq_some_iff.1 hj
        exact ⟨i, hi, by rw [Nat.add_right_comm]; rfl⟩

/-- Rows that are no objects are failures of another kind. -/
theorem rows_ne_badLine (row : Nat) (values : List Json) (n : Nat) :
    rows row values ≠ .error (.badLine n) := by
  induction values generalizing row with
  | nil => simp [rows]
  | cons value values ih =>
    have ih := ih (row + 1)
    rw [rows]
    cases Record.ofJson? value with
    | none => simp
    | some r =>
      cases hrest : rows (row + 1) values with
      | ok records => simp [Except.map]
      | error failure =>
        rw [hrest] at ih
        simpa [Except.map] using ih

/-- A text that is refused for one of its lines is no document and has such a line. -/
theorem json_eq_badLine_iff (text : String) (n : Nat) :
    json text = .error (.badLine n) ↔
      Json.read? (Text.trim text.toList) = none ∧
        firstBad? (Text.trim text.toList) = some n := by
  have hlines : lineValues 1 ((Text.trim text.toList).splitOn '\n') = .error (.badLine n) ↔
      firstBad? (Text.trim text.toList) = some n := by
    rw [lineValues_eq_error_iff, firstBad?, Option.map_eq_some_iff]
    simp only [LoadFailure.badLine.injEq, Nat.add_comm 1, eq_comm, Text.trimmedLines]
  cases hread : Json.read? (Text.trim text.toList) with
  | none =>
    rw [json_of_read?_eq_none hread, ← hlines]
    cases lineValues 1 ((Text.trim text.toList).splitOn '\n') with
    | error failure => simp [bind, Except.bind]
    | ok values => simpa [bind, Except.bind] using rows_ne_badLine 1 values n
  | some value =>
    have hne : json text ≠ .error (.badLine n) := by
      rw [json, hread]
      split
      case isTrue => simp
      case isFalse =>
        cases value with
        | array items => exact rows_ne_badLine 1 items n
        | object members => exact rows_ne_badLine 1 [.object members] n
        | null | bool | integer | double | string => simp
    simp [hne]

/-! ## Lines of the whole text -/

/-- Blank lines around others are not bad, but those in front of them count. -/
theorem findIdx?_isBad (before behind : Nat) (lines : List (List Char)) :
    (List.replicate before [] ++ (lines ++ List.replicate behind [])).findIdx? isBad =
      (lines.findIdx? isBad).map (· + before) := by
  have hblank : ∀ n, (List.replicate n ([] : List Char)).findIdx? isBad = none := fun n => by
    simp [List.findIdx?_replicate, isBad]
  simp [List.findIdx?_append, hblank]

/-- The first line of a text that cannot be read is that of the trimmed text, but for the blank
lines in front of it. -/
theorem firstBad?_eq (text : List Char) :
    firstBad? text = (firstBad? (Text.trim text)).map (· + Text.blankLinesInFront text) := by
  by_cases hempty : Text.trim text = []
  · obtain ⟨before, behind, htext⟩ := Text.trimmedLines_trim text
    rw [firstBad?, htext, findIdx?_isBad, hempty]
    rfl
  · obtain ⟨behind, htext⟩ := Text.trimmedLines_blankLinesInFront hempty
    rw [firstBad?, htext, findIdx?_isBad, firstBad?, Option.map_map, Option.map_map]
    simp only [Function.comp_def, Nat.add_right_comm]

/-- A text is refused for line `n` exactly if it is not one document and the first of its lines that
cannot be read stands `n` lines behind the blank lines that the text begins with. So the number in
the message is the number of that line if the text begins with no blank line, and otherwise it is
too small by as many lines as are blank there. -/
theorem json_badLine (text : String) (n : Nat) :
    (json text = .error (.badLine n) ↔
      Json.read? (Text.trim text.toList) = none ∧
        firstBad? text.toList = some (n + Text.blankLinesInFront text.toList)) ∧
    (json text = .error (.badLine n) →
      (firstBad? text.toList = some n ↔ Text.blankLinesInFront text.toList = 0)) ∧
    LoadFailure.message? (.badLine n) =
      some ("malformed records: " ++ ("invalid ndjson at line " ++ toString n)) := by
  have hiff : json text = .error (.badLine n) ↔ Json.read? (Text.trim text.toList) = none ∧
      firstBad? text.toList = some (n + Text.blankLinesInFront text.toList) := by
    rw [json_eq_badLine_iff, firstBad?_eq text.toList]
    cases firstBad? (Text.trim text.toList) <;> simp
  refine ⟨hiff, fun h => ?_, rfl⟩
  rw [(hiff.1 h).2, Option.some.injEq]
  omega

/-- Two records of which the second cannot be read, with a blank line between them and with one in
front of them. -/
theorem json_badLine_blank :
    let between := "\x7b\"a\":1\x7d\n \n\x7boops"
    let inFront := "\n\x7b\"a\":1\x7d\n\x7boops"
    (json between = .error (.badLine 3) ∧ firstBad? between.toList = some 3) ∧
      json inFront = .error (.badLine 2) ∧ firstBad? inFront.toList = some 3 := by
  intro between inFront
  have hbetween : json between = .error (.badLine 3) := by decide +kernel
  have hinFront : json inFront = .error (.badLine 2) := by decide +kernel
  have hnone : Text.blankLinesInFront between.toList = 0 := by decide +kernel
  have hone : Text.blankLinesInFront inFront.toList = 1 := by decide +kernel
  have hright := ((json_badLine between 3).2.1 hbetween).2 hnone
  have hline := ((json_badLine inFront 2).1.1 hinFront).2
  rw [hone] at hline
  exact ⟨⟨hbetween, hright⟩, hinFront, hline⟩

/-- The number in the message is not always that of the line. -/
theorem not_firstBad?_of_badLine :
    ¬ ∀ (text : String) (n : Nat), json text = .error (.badLine n) →
      firstBad? text.toList = some n := by
  intro h
  have hfirst := h "\n\x7boops" 1 (by decide +kernel)
  revert hfirst
  decide +kernel

end Load

end LooseRecords
