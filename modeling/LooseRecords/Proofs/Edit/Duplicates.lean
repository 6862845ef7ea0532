import LooseRecords.Edit.Removal
import LooseRecords.Proofs.Merge
import LooseRecords.Proofs.Value.Reloaded

/-!
# Records without duplicates

Which records a removal of duplicates drops. `Edit.merged_firsts` says that it keeps the positions
at which a key comes for the first time. Where no fields are listed the key is the text of the whole
record, and `Edit.removeDuplicates_whole` says that then exactly those records go that hold the same
data as an earlier one.
-/

namespace LooseRecords

namespace Edit

variable {α κ : Type} [BEq κ]

/-- For each key of a sequence, whether it comes for the first time. The keys in `seen` count as met
before. -/
def firstMarks (seen : List κ) : List κ → List Bool
  | [] => []
  | k :: keys =>
    if seen.contains k then false :: firstMarks seen keys else true :: firstMarks (k :: seen) keys

/-- The items that are kept are those whose keys come for the first time. -/
theorem merged_firsts (key : α → κ) (seen : List κ) (items : List α) :
    ∃ repeated,
      Merged (firstMarks seen (items.map key)) items (firsts key seen items) repeated := by
  induction items generalizing seen with
  | nil => exact ⟨[], .nil⟩
  | cons a items ih =>
    rw [List.map_cons, firstMarks, firsts]
    split
    · obtain ⟨repeated, hmerged⟩ := ih seen
      exact ⟨a :: repeated, hmerged.second a⟩
    · obtain ⟨repeated, hmerged⟩ := ih (key a :: seen)
      exact ⟨repeated, hmerged.first a⟩

/-- What is kept stands in order. -/
theorem firsts_sublist (key : α → κ) (seen : List κ) (items : List α) :
    (firsts key seen items).Sublist items := by
  obtain ⟨repeated, hmerged⟩ := merged_firsts key seen items
  exact hmerged.sublist_first

/-- Where the keys are the same, the same positions are kept. -/
theorem samePositions_firsts {β : Type} {key : α → κ} {key' : β → κ} (seen : List κ)
    {items : List α} {items' : List β} (h : items.map key = items'.map key') :
    SamePositions items (firsts key seen items) items' (firsts key' seen items') := by
  obtain ⟨repeated, hmerged⟩ := merged_firsts key seen items
  obtain ⟨repeated', hmerged'⟩ := merged_firsts key' seen items'
  rw [h] at hmerged
  exact ⟨_, repeated, repeated', hmerged, hmerged'⟩

/-- Keys that tell the same items apart keep the same items. -/
theorem firsts_congr {κ' : Type} [BEq κ'] [LawfulBEq κ] [LawfulBEq κ'] {key : α → κ}
    {key' : α → κ'} (met : List α) {items : List α}
    (h : ∀ a ∈ met ++ items, ∀ b ∈ items, (key a = key b ↔ key' a = key' b)) :
    firsts key (met.map key) items = firsts key' (met.map key') items := by
  -- The keys that count as met are those of the items in `met`, which grows on both sides at once.
  induction items generalizing met with
  | nil => rfl
  | cons b items ih =>
    have hseen : (met.map key).contains (key b) = (met.map key').contains (key' b) := by
      rw [Bool.eq_iff_iff, List.contains_iff_mem, List.contains_iff_mem, List.mem_map, List.mem_map]
      refine exists_congr fun a => and_congr_right fun ha => ?_
      exact h a (List.mem_append_left _ ha) b (List.mem_cons_self ..)
    have hrest : ∀ a ∈ met ++ items, ∀ c ∈ items, (key a = key c ↔ key' a = key' c) := by
      intro a ha c hc
      refine h a ?_ c (List.mem_cons_of_mem _ hc)
      rw [List.mem_append] at ha ⊢
      exact ha.imp_right (List.mem_cons_of_mem _)
    have hnext : ∀ a ∈ (b :: met) ++ items, ∀ c ∈ items, (key a = key c ↔ key' a = key' c) := by
      intro a ha c hc
      rcases List.mem_cons.1 ha with rfl | hmem
      · exact h a (List.mem_append_right _ (List.mem_cons_self ..)) c (List.mem_cons_of_mem _ hc)
      · exact hrest a hmem c hc
    rw [firsts, firsts, hseen, ih met hrest]
    split
    · rfl
    · exact congrArg _ (ih (b :: met) hnext)

/-- A key does not come for the first time if it counts as met, or if it stands at an earlier
position. -/
theorem getElem?_firstMarks [LawfulBEq κ] (seen keys : List κ) (j : Nat) :
    (firstMarks seen keys)[j]? = some false ↔
      ∃ k, keys[j]? = some k ∧ (k ∈ seen ∨ ∃ i < j, keys[i]? = some k) := by
  induction keys generalizing seen j with
  | nil => simp [firstMarks]
  | cons first keys ih =>
    -- Behind the first key, that key counts as met, whether it is added or was there already.
    have htail : ∀ met : List κ, (∀ k, k ∈ met ↔ k ∈ seen ∨ first = k) → ∀ i,
        (firstMarks met keys)[i]? = some false ↔ ∃ k, (first :: keys)[i + 1]? = some k ∧
          (k ∈ seen ∨ ∃ h < i + 1, (first :: keys)[h]? = some k) := by
      intro met hmet i
      have hearlier : ∀ k, (∃ h < i + 1, (first :: keys)[h]? = some k) ↔
          first = k ∨ ∃ h < i, keys[h]? = some k := by
        intro k
        rw [Nat.exists_lt_succ_left]
        simp
      simp only [ih, hmet, hearlier, List.getElem?_cons_succ, or_assoc]
    rw [firstMarks]
    by_cases hfirst : first ∈ seen
    · rw [if_pos (List.contains_iff_mem.2 hfirst)]
      cases j with
      | zero => simp [hfirst]
      | succ j =>
        refine htail seen (fun k => ⟨.inl, ?_⟩) j
        rintro (hk | rfl)
        · exact hk
        · exact hfirst
    · rw [if_neg (mt List.contains_iff_mem.1 hfirst)]
      cases j with
      | zero => simp [hfirst]
      | succ j => exact htail (first :: seen) (by simp [or_comm, eq_comm]) j

theorem length_firstMarks (seen keys : List κ) : (firstMarks seen keys).length = keys.length := by
  induction keys generalizing seen with
  | nil => rfl
  | cons k keys ih =>
    rw [firstMarks]
    split <;> rw [List.length_cons, List.length_cons, ih]

/-- A key comes for the first time if it does not count as met and stands at no earlier position. -/
theorem getElem?_firstMarks_eq_true [LawfulBEq κ] (seen keys : List κ) (j : Nat) :
    (firstMarks seen keys)[j]? = some true ↔
      ∃ k, keys[j]? = some k ∧ k ∉ seen ∧ ∀ i < j, keys[i]? ≠ some k := by
  have hfalse := getElem?_firstMarks seen keys j
  cases hmark : (firstMarks seen keys)[j]? with
  | none =>
    rw [List.getElem?_eq_none_iff, length_firstMarks] at hmark
    simp [List.getElem?_eq_none hmark]
  | some mark =>
    obtain ⟨hlt, -⟩ := List.getElem?_eq_some_iff.1 hmark
    rw [length_firstMarks] at hlt
    cases mark with
    | false =>
      obtain ⟨k, hk, hmet⟩ := hfalse.1 hmark
      constructor
      · intro h
        cases h
      · rintro ⟨k', hk', hnot, hfirst⟩
        cases hk.symm.trans hk'
        rcases hmet with hmem | ⟨i, hi, hki⟩
        · exact absurd hmem hnot
        · exact absurd hki (hfirst i hi)
    | true =>
      have hk := List.getElem?_eq_getElem hlt
      refine ⟨fun _ => ⟨_, hk, fun hmem => ?_, fun i hi hki => ?_⟩, fun _ => rfl⟩
      · cases hmark.symm.trans (hfalse.2 ⟨_, hk, .inl hmem⟩)
      · cases hmark.symm.trans (hfalse.2 ⟨_, hk, .inr ⟨i, hi, hki⟩⟩)

/-- The keys of the kept items are the keys that there are, less those that count as met. -/
theorem mem_map_firsts [LawfulBEq κ] (key : α → κ) (seen : List κ) (items : List α) (k : κ) :
    k ∈ (firsts key seen items).map key ↔ k ∈ items.map key ∧ k ∉ seen := by
  induction items generalizing seen with
  | nil => simp [firsts]
  | cons a items ih =>
    rw [firsts]
    split
    case isTrue hseen =>
      have hmem : key a ∈ seen := List.contains_iff_mem.1 hseen
      rw [ih, List.map_cons, List.mem_cons]
      constructor
      · rintro ⟨hk, hnot⟩
        exact ⟨.inr hk, hnot⟩
      · rintro ⟨rfl | hk, hnot⟩
        · exact absurd hmem hnot
        · exact ⟨hk, hnot⟩
    case isFalse hseen =>
      have hnot : key a ∉ seen := mt List.contains_iff_mem.2 hseen
      rw [List.map_cons, List.mem_cons, ih, List.map_cons, List.mem_cons, List.mem_cons]
      by_cases hk : k = key a
      · simp [hk, hnot]
      · simp [hk]

/-- Of items with one key the first is kept. -/
theorem firsts_eq_take_one [LawfulBEq κ] {key : α → κ} {items : List α}
    (h : ∀ a ∈ items, ∀ b ∈ items, key a = key b) : firsts key [] items = items.take 1 := by
  cases items with
  | nil => rfl
  | cons a items =>
    have hrest : firsts key [key a] items = [] := by
      rw [List.eq_nil_iff_forall_not_mem]
      intro b hb
      have hkept := (mem_map_firsts key [key a] items (key b)).1 (List.mem_map_of_mem hb)
      have hmem : b ∈ items := (firsts_sublist key [key a] items).subset hb
      exact hkept.2 (by simp [h b (List.mem_cons_of_mem _ hmem) a (List.mem_cons_self ..)])
    show a :: firsts key [key a] items = [a]
    rw [hrest]

/-- No two of the kept items have the same key. -/
theorem nodup_map_firsts [LawfulBEq κ] (key : α → κ) (seen : List κ) (items : List α) :
    ((firsts key seen items).map key).Nodup := by
  induction items generalizing seen with
  | nil => exact List.nodup_nil
  | cons a items ih =>
    rw [firsts]
    split
    · exact ih seen
    · rw [List.map_cons, List.nodup_cons, mem_map_firsts]
      exact ⟨fun h => h.2 List.mem_cons_self, ih (key a :: seen)⟩

/-- Items with different keys that do not count as met are all kept. -/
theorem firsts_eq_self [LawfulBEq κ] {key : α → κ} {seen : List κ} {items : List α}
    (h : (items.map key).Nodup) (hseen : ∀ a ∈ items, key a ∉ seen) :
    firsts key seen items = items := by
  induction items generalizing seen with
  | nil => rfl
  | cons a items ih =>
    rw [List.map_cons, List.nodup_cons] at h
    rw [firsts, if_neg (mt List.contains_iff_mem.1 (hseen a List.mem_cons_self))]
    refine congrArg _ (ih h.2 fun b hb hmem => ?_)
    rcases List.mem_cons.1 hmem with heq | hmem
    · exact h.1 (heq ▸ List.mem_map_of_mem hb)
    · exact hseen b (List.mem_cons_of_mem _ hb) hmem

/-- Whole records are told apart by what they hold. Of a record set with distinct names, a removal
of duplicates drops the record at a position exactly if a record at an earlier position is the same
after both were saved and loaded: the same names and values in the same order, where a date is its
ISO text, a number that is not finite is null, and both zeros are one. The texts of two records,
however deeply they are nested, agree exactly if the records are the same in this sense. -/
theorem removeDuplicates_whole {records : RecordSet} (hnames : ∀ r ∈ records, r.NamesDistinct) :
    (∃ marks repeated, Merged marks records (removeDuplicates "" records) repeated ∧
      ∀ j : Nat, marks[j]? = some false ↔ ∃ b : Record, records[j]? = some b ∧
        ∃ i < j, ∃ a : Record, records[i]? = some a ∧ a.reloaded = b.reloaded) ∧
      ∀ a b : Record, a.NamesDistinct → b.NamesDistinct →
        (a.jsonText = b.jsonText ↔ a.reloaded = b.reloaded) := by
  refine ⟨?_, fun a b => Record.jsonText_eq_iff⟩
  obtain ⟨repeated, hmerged⟩ := merged_firsts (distinctKey "") [] records
  refine ⟨_, repeated, hmerged, fun j => ?_⟩
  have hkey : distinctKey "" = Record.jsonText := rfl
  have hkeys : ∀ {i : Nat} {a b : Record}, records[i]? = some a → records[j]? = some b →
      (a.jsonText = b.jsonText ↔ a.reloaded = b.reloaded) := fun ha hb =>
    Record.jsonText_eq_iff (hnames _ (List.mem_of_getElem? ha)) (hnames _ (List.mem_of_getElem? hb))
  rw [getElem?_firstMarks, hkey]
  simp only [List.getElem?_map, Option.map_eq_some_iff, List.not_mem_nil, false_or]
  constructor
  · rintro ⟨-, ⟨b, hb, rfl⟩, i, hi, a, ha, htext⟩
    exact ⟨b, hb, i, hi, a, ha, (hkeys ha hb).1 htext⟩
  · rintro ⟨b, hb, i, hi, a, ha, hsame⟩
    exact ⟨_, ⟨b, hb, rfl⟩, i, hi, a, ha, (hkeys ha hb).2 hsame⟩

/-- A date and its text, and zeros of either sign, are the same data; the same fields in another
order are not. -/
theorem removeDuplicates_whole_zeros :
    let first : Record :=
      ⟨[("d", .date ⟨0⟩), ("n", .array [.number (.finite true ⟨0, by decide⟩)])]⟩
    let same : Record :=
      ⟨[("d", .string "1970-01-01T00:00:00.000Z"), ("n", .array [.number .zero])]⟩
    let other : Record := ⟨[("n", .array [.number .zero]), ("d", .date ⟨0⟩)]⟩
    let records : RecordSet := [first, same, other]
    (∀ r ∈ records, r.NamesDistinct) ∧ removeDuplicates "" records = [first, other] ∧
      (∃ marks repeated, Merged marks records (removeDuplicates "" records) repeated ∧
        ∀ j : Nat, marks[j]? = some false ↔ ∃ b : Record, records[j]? = some b ∧
          ∃ i < j, ∃ a : Record, records[i]? = some a ∧ a.reloaded = b.reloaded) ∧
      ∀ a b : Record, a.NamesDistinct → b.NamesDistinct →
        (a.jsonText = b.jsonText ↔ a.reloaded = b.reloaded) := by
  intro first same other records
  have hnames : ∀ r ∈ records, r.NamesDistinct := by
    simp [records, first, same, other, Record.NamesDistinct, Value.NamesDistinct,
      Value.ItemsNamesDistinct, Value.FieldsNamesDistinct, Fields.names]
  have hkept : removeDuplicates "" records = [first, other] := by decide +kernel
  exact ⟨hnames, hkept, removeDuplicates_whole hnames⟩

end Edit

end LooseRecords
