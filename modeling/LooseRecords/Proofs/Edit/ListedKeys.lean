import LooseRecords.Proofs.Edit.Duplicates

/-!
# Records told apart by listed fields

Where fields are listed, the key of a record is the texts of these fields with bars between them.
`Edit.removeDuplicates_listed` says that the first record of each key is kept, and that two records
have the same key exactly if the listed fields look the same, as long as no bar stands in one of
their texts.
-/

namespace LooseRecords

namespace Value

/-- The text of a field in a key: its display text, and nothing for a field that is missing or
null. -/
def keyText : Option Value → List Char
  | none | some .null => []
  | some value => display value

theorem join_eq (separator : List Char) (values : List (Option Value)) :
    join separator values = separator.intercalate (values.map keyText) := by
  refine congrArg separator.intercalate (List.map_congr_left fun value _ => ?_)
  cases value with
  | none => rfl
  | some v => cases v <;> rfl

end Value

namespace Edit

/-- The names in a list of fields. -/
def keyNames (fields : String) : List String := (Text.listed fields.toList).map String.ofList

theorem keyNames_ne_nil (fields : String) : keyNames fields ≠ [] := by
  simp [keyNames, Text.listed, List.splitOn_ne_nil]

/-- The texts of the listed fields of a record. -/
def keyTexts (fields : String) (record : Record) : List (List Char) :=
  (keyNames fields).map fun name => Value.keyText (record.get? name)

/-- The key by listed fields joins their texts with bars. -/
theorem distinctKey_listed {fields : String} (h : fields ≠ "") (record : Record) :
    distinctKey fields record = ['|'].intercalate (keyTexts fields record) := by
  rw [distinctKey, if_neg (by simpa using h), Value.join_eq, keyTexts, keyNames, List.map_map,
    List.map_map]
  rfl

/-- Joined texts without bars are found between the bars. -/
theorem splitOn_distinctKey {fields : String} (h : fields ≠ "") {record : Record}
    (hbars : ∀ name ∈ keyNames fields, '|' ∉ Value.keyText (record.get? name)) :
    (distinctKey fields record).splitOn '|' = keyTexts fields record := by
  rw [distinctKey_listed h]
  exact List.splitOn_intercalate '|' (by simpa [keyTexts] using hbars)
    (by simpa [keyTexts] using keyNames_ne_nil fields)

/-- Records without bars in their listed fields have the same key exactly if these fields look the
same. -/
theorem distinctKey_eq_iff {fields : String} (h : fields ≠ "") {a b : Record}
    (ha : ∀ name ∈ keyNames fields, '|' ∉ Value.keyText (a.get? name))
    (hb : ∀ name ∈ keyNames fields, '|' ∉ Value.keyText (b.get? name)) :
    distinctKey fields a = distinctKey fields b ↔
      ∀ name ∈ keyNames fields, Value.keyText (a.get? name) = Value.keyText (b.get? name) := by
  rw [← List.map_inj_left]
  show _ ↔ keyTexts fields a = keyTexts fields b
  constructor
  · intro hkeys
    rw [← splitOn_distinctKey h ha, ← splitOn_distinctKey h hb, hkeys]
  · intro htexts
    rw [distinctKey_listed h, distinctKey_listed h, htexts]

/-- With listed fields a removal of duplicates keeps the record at a position exactly if no record
at an earlier position has its key. So the kept records come in order, each with a key of its own,
every key is that of a kept record, and to remove duplicates again removes none. Two records, in
whose listed fields no bar is shown, have the same key exactly if they show the same in each of
these fields, where one that is missing or null shows nothing. -/
theorem removeDuplicates_listed {fields : String} (h : fields ≠ "") (records : RecordSet) :
    (∃ marks repeated, Merged marks records (removeDuplicates fields records) repeated ∧
      ∀ j : Nat, marks[j]? = some true ↔ ∃ b : Record, records[j]? = some b ∧
        ∀ i < j, ∀ a : Record, records[i]? = some a →
          distinctKey fields a ≠ distinctKey fields b) ∧
      ((removeDuplicates fields records).map (distinctKey fields)).Nodup ∧
      (∀ a ∈ records, ∃ b ∈ removeDuplicates fields records,
        distinctKey fields b = distinctKey fields a) ∧
      (removeDuplicates fields records).Sublist records ∧
      removeDuplicates fields (removeDuplicates fields records) =
        removeDuplicates fields records ∧
      ∀ a b : Record,
        (∀ name ∈ keyNames fields, '|' ∉ Value.keyText (a.get? name)) →
        (∀ name ∈ keyNames fields, '|' ∉ Value.keyText (b.get? name)) →
        (distinctKey fields a = distinctKey fields b ↔
          ∀ name ∈ keyNames fields, Value.keyText (a.get? name) = Value.keyText (b.get? name)) := by
  obtain ⟨repeated, hmerged⟩ := merged_firsts (distinctKey fields) [] records
  have hnodup : ((removeDuplicates fields records).map (distinctKey fields)).Nodup :=
    nodup_map_firsts ..
  refine ⟨⟨_, repeated, hmerged, fun j => ?_⟩, hnodup, fun a ha => ?_, hmerged.sublist_first,
    firsts_eq_self hnodup (by simp), fun a b => distinctKey_eq_iff h⟩
  · rw [getElem?_firstMarks_eq_true]
    simp only [List.getElem?_map, Option.map_eq_some_iff, List.not_mem_nil, not_false_eq_true,
      true_and, ne_eq, not_exists, not_and]
    constructor
    · rintro ⟨-, ⟨b, hb, rfl⟩, hfirst⟩
      exact ⟨b, hb, hfirst⟩
    · rintro ⟨b, hb, hfirst⟩
      exact ⟨_, ⟨b, hb, rfl⟩, hfirst⟩
  · have hkey := (mem_map_firsts (distinctKey fields) [] records (distinctKey fields a)).2
      ⟨List.mem_map_of_mem ha, by simp⟩
    obtain ⟨b, hb, heq⟩ := List.mem_map.1 hkey
    exact ⟨b, hb, heq⟩

/-- A missing field, a null and an empty text are the same in a key, and so are a number and its
text; blanks around a listed name do not count. -/
theorem removeDuplicates_listed_vacant :
    let missing : Record := ⟨[("n", .number (.ofNat 7))]⟩
    let null : Record := ⟨[("k", .null), ("n", .string "7")]⟩
    let other : Record := ⟨[("k", .string "null"), ("n", .string "7")]⟩
    let records : RecordSet := [missing, null, other]
    " k ,n" ≠ "" ∧ removeDuplicates " k ,n" records = [missing, other] ∧
      (∃ b ∈ removeDuplicates " k ,n" records, distinctKey " k ,n" b = distinctKey " k ,n" null) ∧
      distinctKey " k ,n" missing = distinctKey " k ,n" null ∧
      distinctKey " k ,n" null ≠ distinctKey " k ,n" other := by
  intro missing null other records
  have hfields : " k ,n" ≠ "" := by decide
  obtain ⟨-, -, hkept, -, -, hkeys⟩ := removeDuplicates_listed hfields records
  have hbars : ∀ r ∈ records, ∀ name ∈ keyNames " k ,n", '|' ∉ Value.keyText (r.get? name) := by
    decide +kernel
  have hmissing := hbars missing (by simp [records])
  have hnull := hbars null (by simp [records])
  have hother := hbars other (by simp [records])
  refine ⟨hfields, by decide +kernel, hkept null (by simp [records]),
    (hkeys missing null hmissing hnull).2 (by decide +kernel), fun hsame => ?_⟩
  have htexts := (hkeys null other hnull hother).1 hsame "k" (by decide +kernel)
  exact absurd htexts (by decide +kernel)

end Edit

end LooseRecords
