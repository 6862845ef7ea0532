import LooseRecords.Proofs.Json.Apart
import LooseRecords.Proofs.Load.RoundTrip
import LooseRecords.Proofs.Text.Lines
import Mathlib.Data.List.Forall2

/-!
# Records on lines

A JSON text is one document or holds an object on each of its lines, and the loader has to find out
which. `Load.json_lines` says that it does: records on lines are loaded like the array of these
records, and lines that are not objects are refused.
-/

namespace LooseRecords

/-! ## Lists side by side -/

section

variable {α β γ : Type} {R : α → β → Prop} {S : β → γ → Prop}

theorem exists_forall₂_iff (as : List α) :
    (∃ bs, List.Forall₂ R as bs) ↔ ∀ a ∈ as, ∃ b, R a b := by
  induction as with
  | nil => simp
  | cons a as ih =>
    rw [List.forall_mem_cons, ← ih]
    simp only [List.forall₂_cons_left_iff]
    constructor
    · rintro ⟨_, b, bs, hb, hbs, rfl⟩
      exact ⟨⟨b, hb⟩, bs, hbs⟩
    · rintro ⟨⟨b, hb⟩, bs, hbs⟩
      exact ⟨_, b, bs, hb, hbs, rfl⟩

theorem forall₂_comp_iff (as : List α) (cs : List γ) :
    (∃ bs, List.Forall₂ R as bs ∧ List.Forall₂ S bs cs) ↔
      List.Forall₂ (fun a c => ∃ b, R a b ∧ S b c) as cs := by
  constructor
  · rintro ⟨bs, hbs, hcs⟩
    induction hbs generalizing cs with
    | nil =>
      cases hcs
      exact .nil
    | cons hb _ ih =>
      cases hcs with
      | cons hc hcs => exact .cons ⟨_, hb, hc⟩ (ih _ hcs)
  · intro h
    induction h with
    | nil => exact ⟨[], .nil, .nil⟩
    | cons hac _ ih =>
      obtain ⟨b, hb, hc⟩ := hac
      obtain ⟨bs, hbs, hcs⟩ := ih
      exact ⟨b :: bs, .cons hb hbs, .cons hc hcs⟩

end

namespace Load

theorem rows_eq_ok_iff (row : Nat) (values : List Json) (records : RecordSet) :
    rows row values = .ok records ↔
      List.Forall₂ (fun value r => Record.ofJson? value = some r) values records := by
  induction values generalizing row records with
  | nil =>
    rw [rows, List.forall₂_nil_left_iff]
    exact ⟨fun h => by cases h; rfl, fun h => by rw [h]⟩
  | cons value values ih =>
    rw [rows, List.forall₂_cons_left_iff]
    cases hvalue : Record.ofJson? value with
    | none => simp
    | some r =>
      have ih := ih (row + 1)
      simp only [Option.some.injEq, exists_and_left, exists_eq_left', ← ih]
      cases rows (row + 1) values with
      | error failure => simp [Except.map]
      | ok rest => simp [Except.map, eq_comm]

theorem lineValues_eq_ok_iff (number : Nat) (lines : List (List Char)) (values : List Json) :
    lineValues number lines = .ok values ↔
      List.Forall₂ (fun line value => Json.read? line = some value)
        ((lines.map Text.trim).filter fun line => !line.isEmpty) values := by
  induction lines generalizing number values with
  | nil =>
    rw [lineValues]
    simp [eq_comm]
  | cons line lines ih =>
    have ih := ih (number + 1)
    rw [lineValues, List.map_cons, List.filter_cons]
    cases hline : (Text.trim line).isEmpty with
    | true => simpa using ih values
    | false =>
      simp only [Bool.false_eq_true, if_false, Bool.not_false, if_true, List.forall₂_cons_left_iff]
      cases hread : Json.read? (Text.trim line) with
      | none => simp
      | some value =>
        simp only [Option.some.injEq, exists_and_left, exists_eq_left', ← ih]
        cases lineValues (number + 1) lines with
        | error failure => simp [Except.map]
        | ok rest => simp [Except.map, eq_comm]

/-- The text is the JSON object that the record is. -/
def Holds (text : List Char) (r : Record) : Prop :=
  ∃ members, Json.read? text = some (.object members) ∧ r = ⟨Value.ofMembers members⟩

theorem holds_iff (text : List Char) (r : Record) :
    Holds text r ↔ ∃ value, Json.read? text = some value ∧ Record.ofJson? value = some r := by
  constructor
  · rintro ⟨members, hread, rfl⟩
    exact ⟨_, hread, rfl⟩
  · rintro ⟨value, hread, hr⟩
    cases value with
    | object members =>
      cases hr
      exact ⟨members, hread, rfl⟩
    | null | bool | integer | double | string | array => cases hr

/-- A text that is not one document is read line by line. -/
theorem json_of_read?_eq_none {text : String} (h : Json.read? (Text.trim text.toList) = none) :
    json text = lineValues 1 ((Text.trim text.toList).splitOn '\n') >>= rows 1 := by
  rw [json]
  cases hempty : (Text.trim text.toList).isEmpty with
  | true =>
    rw [List.isEmpty_iff.1 hempty]
    rfl
  | false => simp only [h, Bool.false_eq_true, if_false]

/-- A text that is not one document has the records of its lines. -/
theorem json_eq_ok_iff {text : String} (h : Json.read? (Text.trim text.toList) = none)
    (records : RecordSet) :
    json text = .ok records ↔ List.Forall₂ Holds (Text.lines text.toList) records := by
  have hvalues := lineValues_eq_ok_iff 1 ((Text.trim text.toList).splitOn '\n')
  have hbind : json text = .ok records ↔ ∃ values,
      lineValues 1 ((Text.trim text.toList).splitOn '\n') = .ok values ∧
        rows 1 values = .ok records := by
    rw [json_of_read?_eq_none h]
    cases lineValues 1 ((Text.trim text.toList).splitOn '\n') with
    | error failure => simp [bind, Except.bind]
    | ok values => simp [bind, Except.bind]
  rw [hbind]
  simp only [hvalues, rows_eq_ok_iff]
  rw [forall₂_comp_iff, ← Text.lines_trim]
  simp only [← holds_iff]
  rfl

/-! ## Records on lines -/

/-- Blanks that stand on one line. -/
structure Padding (blanks : List Char) : Prop where
  blank : Text.Blank blanks
  noFeed : '\n' ∉ blanks

/-- A line that holds nothing, or the text of one record between blanks. -/
inductive Line : RecordSet → List Char → Prop where
  | blank {blanks : List Char} (h : Padding blanks) : Line [] blanks
  | record {before behind : List Char} (r : Record) (hbefore : Padding before)
    (hbehind : Padding behind) : Line [r] (before ++ (r.jsonText ++ behind))

/-- What ends a line: a line feed, or a carriage return and a line feed. -/
def lineEnds : List (List Char) := [['\n'], ['\r', '\n']]

/-- A text that holds records on lines. The last line need not be ended. -/
inductive OnLines : RecordSet → List Char → Prop where
  | last {records : RecordSet} {line : List Char} (h : Line records line) : OnLines records line
  | next {first rest : RecordSet} {line lineEnd text : List Char} (h : Line first line)
    (hend : lineEnd ∈ lineEnds) (hrest : OnLines rest text) :
    OnLines (first ++ rest) (line ++ (lineEnd ++ text))

theorem trim_jsonText (r : Record) : Text.trim r.jsonText = r.jsonText :=
  Text.trim_of_ends (by decide) (by decide) _

/-- The text of a record stands on one line. -/
theorem not_mem_jsonText (r : Record) : '\n' ∉ r.jsonText := by
  intro hmem
  have hprinted := Json.printed_text r.json '\n' hmem
  revert hprinted
  decide

namespace Line

variable {records : RecordSet} {line : List Char}

theorem lines_eq (h : Line records line) : Text.lines line = records.map Record.jsonText := by
  cases h with
  | blank h => exact Text.lines_of_blank h.blank
  | @record before behind r hbefore hbehind =>
    have hfeed : '\n' ∉ before ++ (r.jsonText ++ behind) := by
      simp [hbefore.noFeed, hbehind.noFeed, not_mem_jsonText r]
    rw [Text.lines_of_not_mem hfeed, Text.trim_blanks_append hbefore.blank,
      Text.trim_append_blanks _ hbehind.blank, trim_jsonText]
    rfl

/-- A carriage return in front of a line feed is one of the blanks of its line. -/
theorem ended {lineEnd : List Char} (h : Line records line) (hend : lineEnd ∈ lineEnds)
    (text : List Char) :
    ∃ longer, Line records longer ∧ line ++ (lineEnd ++ text) = longer ++ '\n' :: text := by
  have hreturn : ∀ {blanks}, Padding blanks → Padding (blanks ++ ['\r']) := by
    rintro blanks ⟨hblank, hfeed⟩
    exact ⟨List.forall_mem_append.2 ⟨hblank, List.forall_mem_singleton.2 rfl⟩, by simp [hfeed]⟩
  rcases List.mem_cons.1 hend with rfl | hend
  · exact ⟨line, h, rfl⟩
  · obtain rfl := List.mem_singleton.1 hend
    refine ⟨line ++ ['\r'], ?_, by simp⟩
    cases h with
    | blank h => exact .blank (hreturn h)
    | record r hbefore hbehind =>
      simp only [List.append_assoc]
      exact .record r hbefore (hreturn hbehind)

end Line

theorem blank_lineEnd {lineEnd : List Char} (h : lineEnd ∈ lineEnds) : Text.Blank lineEnd := by
  have hall : ∀ lineEnd ∈ lineEnds, lineEnd.all Text.isBlank = true := by decide
  exact List.all_eq_true.1 (hall lineEnd h)

namespace OnLines

variable {records : RecordSet} {text : List Char}

/-- The lines that are not blank are the texts of the records. -/
theorem lines_eq (h : OnLines records text) : Text.lines text = records.map Record.jsonText := by
  induction h with
  | last h => exact h.lines_eq
  | next h hend _ ih =>
    obtain ⟨longer, hline, heq⟩ := h.ended hend _
    rw [heq, Text.lines_append_cons, hline.lines_eq, ih, List.map_append]

/-- Lines without a record are blank. -/
theorem blank (h : OnLines records text) (hnone : records = []) : Text.Blank text := by
  have hline : ∀ {line}, Line [] line → Text.Blank line := fun h => by
    cases h with
    | blank h => exact h.blank
  induction h with
  | last h =>
    subst hnone
    exact hline h
  | next h hend _ ih =>
    obtain ⟨rfl, rfl⟩ := List.append_eq_nil_iff.1 hnone
    exact List.forall_mem_append.2
      ⟨hline h, List.forall_mem_append.2 ⟨blank_lineEnd hend, ih rfl⟩⟩

/-- The first record stands behind blanks, and the others on lines behind it. -/
theorem split (h : OnLines records text) {r : Record} {rest : RecordSet}
    (hrecords : records = r :: rest) :
    ∃ before behind, text = before ++ (r.jsonText ++ behind) ∧ Text.Blank before ∧
      OnLines rest behind := by
  induction h with
  | last h =>
    cases h with
    | blank => cases hrecords
    | record r hbefore hbehind =>
      cases hrecords
      exact ⟨_, _, rfl, hbefore.blank, .last (.blank hbehind)⟩
  | @next first others line lineEnd text h hend hothers ih =>
    cases h with
    | blank h =>
      obtain ⟨before, behind, rfl, hbefore, hbehind⟩ := ih hrecords
      refine ⟨line ++ (lineEnd ++ before), behind, by simp, ?_, hbehind⟩
      exact List.forall_mem_append.2
        ⟨h.blank, List.forall_mem_append.2 ⟨blank_lineEnd hend, hbefore⟩⟩
    | record r hbefore hbehind =>
      cases hrecords
      exact ⟨_, _, by simp only [List.append_assoc], hbefore.blank,
        .next (.blank hbehind) hend hothers⟩

end OnLines

theorem holds_jsonText {r : Record} (hnames : r.NamesDistinct)
    (hnesting : r.json.nesting ≤ Json.depthLimit) : Holds r.jsonText r.reread :=
  (holds_iff _ _).2
    ⟨_, Json.read?_text_reread (Value.sound_json (.object r.fields) hnames) hnesting,
      r.ofJson?_reread_json⟩

/-- The text of a record with a further record behind it is not one document. -/
theorem read?_jsonText_append (r : Record) {records : RecordSet} {s : Record} {behind : List Char}
    (h : OnLines (s :: records) behind) :
    Json.read? (Text.trim (r.jsonText ++ behind)) = none := by
  obtain ⟨before, rest, rfl, -, -⟩ := h.split rfl
  -- The brace of the further record is no blank, so it is not cut off.
  obtain ⟨inner, hinner⟩ : ∃ inner, s.jsonText = '\x7b' :: inner := ⟨_, rfl⟩
  have hfront : (r.jsonText ++ (before ++ (s.jsonText ++ rest))).dropWhile Text.isBlank =
      r.jsonText ++ (before ++ (s.jsonText ++ rest)) :=
    Text.dropWhile_isBlank fun c hc => by cases hc; rfl
  have htrim : Text.trim (r.jsonText ++ (before ++ (s.jsonText ++ rest))) =
      r.jsonText ++ (before ++ '\x7b' :: Text.trimEnd (inner ++ rest)) := by
    rw [Text.trim, hfront, hinner, List.cons_append, ← List.append_assoc,
      Text.trimEnd_append_cons _ (by decide), List.append_assoc]
  rw [htrim]
  exact Json.read?_object_append _ ⟨'\x7b', by simp, by decide⟩

/-- Records on lines are loaded, be they none, one or more. -/
theorem json_onLines {text : String} {records : RecordSet} (h : OnLines records text.toList)
    (hnames : ∀ r ∈ records, r.NamesDistinct)
    (hnesting : ∀ r ∈ records, r.json.nesting ≤ Json.depthLimit) :
    json text = .ok (records.map Record.reread) := by
  match records with
  | [] =>
    have htrim : Text.trim text.toList = [] := Text.trim_of_blank (h.blank rfl)
    rw [json, htrim]
    rfl
  | [r] =>
    obtain ⟨before, behind, htext, hbefore, hbehind⟩ := h.split rfl
    have htrim : Text.trim text.toList = r.jsonText := by
      rw [htext, Text.trim_blanks_append hbefore, Text.trim_append_blanks _ (hbehind.blank rfl),
        trim_jsonText]
    obtain ⟨members, hread, hr⟩ := holds_jsonText (hnames r (by simp)) (hnesting r (by simp))
    have hempty : r.jsonText.isEmpty = false := rfl
    rw [json, htrim]
    simp only [hempty, hread, Bool.false_eq_true, if_false]
    rw [List.map_singleton, hr]
    rfl
  | r :: s :: rest =>
    obtain ⟨before, behind, htext, hbefore, hbehind⟩ := h.split rfl
    have hmany : Json.read? (Text.trim text.toList) = none := by
      rw [htext, Text.trim_blanks_append hbefore]
      exact read?_jsonText_append r hbehind
    rw [json_eq_ok_iff hmany, h.lines_eq, List.forall₂_map_left_iff, List.forall₂_map_right_iff,
      List.forall₂_same]
    exact fun r hr => holds_jsonText (hnames r hr) (hnesting r hr)

theorem exists_holds_iff (text : List Char) :
    (∃ r, Holds text r) ↔ ∃ members, Json.read? text = some (.object members) := by
  constructor
  · rintro ⟨_, members, hread, -⟩
    exact ⟨members, hread⟩
  · rintro ⟨members, hread⟩
    exact ⟨_, members, hread, rfl⟩

/-- Lines and arrays are loaded alike. Records on lines, be they none, one or more, are loaded as
those of the array that holds them, if that is not nested too deeply; nothing but what JSON lacks is
lost if their numbers are read as they are written. A text that is not one document is loaded
exactly if each of its lines that are not blank is an object: one record for each such line in
order. Otherwise loading it fails. -/
theorem json_lines (text : String) :
    (∀ records : RecordSet, OnLines records text.toList → (∀ r ∈ records, r.NamesDistinct) →
      (∀ r ∈ records, r.json.nesting < Json.depthLimit) →
        json text = .ok (records.map Record.reread) ∧
          json text = json (String.ofList (RecordSet.jsonText records)) ∧
          ((∀ r ∈ records, r.json.NumbersKept) → json text = .ok (records.map Record.reloaded))) ∧
    (Json.read? (Text.trim text.toList) = none →
      (∀ records, json text = .ok records ↔ List.Forall₂ Holds (Text.lines text.toList) records) ∧
      ((∃ records, json text = .ok records) ↔
        ∀ line ∈ Text.lines text.toList, ∃ members, Json.read? line = some (.object members)) ∧
      ((∃ failure, json text = .error failure) ↔
        ∃ line ∈ Text.lines text.toList, ∀ members, Json.read? line ≠ some (.object members))) := by
  constructor
  · intro records hlines hnames hnesting
    have hloaded := json_onLines hlines hnames fun r hr => Nat.le_of_lt (hnesting r hr)
    have harray := json_jsonText_reread hnames (RecordSet.nesting_json_le hnesting (by decide))
    refine ⟨hloaded, hloaded.trans harray.symm, fun hkept => ?_⟩
    rw [hloaded, map_reread_eq hkept]
  · intro hnone
    have hok := json_eq_ok_iff hnone
    have hexists : (∃ records, json text = .ok records) ↔
        ∀ line ∈ Text.lines text.toList, ∃ members, Json.read? line = some (.object members) := by
      simp only [hok, exists_forall₂_iff, exists_holds_iff]
    have herror : (∃ failure, json text = .error failure) ↔
        ¬ ∃ records, json text = .ok records := by
      cases json text <;> simp
    refine ⟨hok, hexists, ?_⟩
    rw [herror, hexists]
    simp only [not_forall, not_exists, exists_prop, ne_eq]

/-- Two records between blank lines, the first one ended by a carriage return and a line feed, and a
text with a line that is not an object. -/
theorem json_lines_padded :
    let records : RecordSet :=
      [⟨[("a", .string "x\ny"), ("b", .number (.ofRatio true 1 2))]⟩, ⟨[]⟩]
    let text := "\n \x7b\"a\":\"x\\ny\",\"b\":-0.5\x7d\r\n\u00a0\n\x7b\x7d"
    let refused := "\x7b\x7d\n\n 5"
    OnLines records text.toList ∧ (∀ r ∈ records, r.NamesDistinct) ∧
      (∀ r ∈ records, r.json.nesting < Json.depthLimit) ∧
      (∀ r ∈ records, r.json.NumbersKept) ∧ json text = .ok (records.map Record.reloaded) ∧
      json text = json (String.ofList (RecordSet.jsonText records)) ∧
      Json.read? (Text.trim refused.toList) = none ∧
      Text.lines refused.toList = ["\x7b\x7d".toList, "5".toList] ∧
      ∃ failure, json refused = .error failure := by
  intro records text refused
  have hnil : Padding [] := ⟨List.forall_mem_nil _, by simp⟩
  have hone : ∀ c, Text.isBlank c = true → c ≠ '\n' → Padding [c] := fun c hc hfeed =>
    ⟨List.forall_mem_singleton.2 hc, by simp [Ne.symm hfeed]⟩
  have hlines : OnLines records text.toList := by
    have htext : text.toList = [] ++ (['\n'] ++ (([' '] ++ ((records[0]).jsonText ++ [])) ++
        (['\r', '\n'] ++ (['\u00a0'] ++ (['\n'] ++ ([] ++ ((records[1]).jsonText ++ []))))))) := by
      decide +kernel
    rw [htext]
    exact .next (.blank hnil) (by decide)
      (.next (.record _ (hone ' ' (by decide) (by decide)) hnil) (by decide)
        (.next (.blank (hone '\u00a0' (by decide) (by decide))) (by decide)
          (.last (.record _ hnil hnil))))
  have hnames : ∀ r ∈ records, r.NamesDistinct := by
    simp [records, Record.NamesDistinct, Value.NamesDistinct, Value.FieldsNamesDistinct,
      Fields.names]
  have hnesting : ∀ r ∈ records, r.json.nesting < Json.depthLimit := by decide +kernel
  have hkept : ∀ r ∈ records, r.json.NumbersKept := by decide +kernel
  have hrefused : Json.read? (Text.trim refused.toList) = none := by decide +kernel
  have hsplit : Text.lines refused.toList = ["\x7b\x7d".toList, "5".toList] := by decide +kernel
  obtain ⟨-, harray, hloaded⟩ := (json_lines text).1 records hlines hnames hnesting
  have hnumber : Json.read? "5".toList = some (.integer 5) := by decide +kernel
  have hfailure := ((json_lines refused).2 hrefused).2.2.2
    ⟨"5".toList, by simp [hsplit], fun members h => by cases hnumber.symm.trans h⟩
  exact ⟨hlines, hnames, hnesting, hkept, hloaded hkept, harray, hrefused, hsplit, hfailure⟩

end Load

end LooseRecords
