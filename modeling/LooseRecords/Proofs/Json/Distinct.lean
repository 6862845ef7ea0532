import LooseRecords.Proofs.Json.Text
import Mathlib.Data.List.Nodup

/-!
# Names that are not repeated

A document may repeat a name, and says so: `Document.NamesDistinct` is about documents as they are
written. What a document stands for repeats none, by `Json.sound_of_read?`, and neither does the
text of such a value, by `Json.namesDistinct_document`.
-/

namespace LooseRecords

namespace Json

theorem itemsSound_iff (items : List Json) : ItemsSound items ↔ ∀ item ∈ items, item.Sound := by
  induction items with
  | nil => simp [ItemsSound]
  | cons item items ih => rw [ItemsSound, ih, List.forall_mem_cons]

theorem membersSound_iff (members : List (String × Json)) :
    MembersSound members ↔ ∀ member ∈ members, member.2.Sound := by
  induction members with
  | nil => simp [MembersSound]
  | cons member members ih => rw [MembersSound, ih, List.forall_mem_cons]

namespace Document

/-! ## What a document stands for -/

theorem sound_of_numberValue? {n : Numeral} {j : Json} (h : numberValue? n = some j) :
    j.Sound := by
  have hfinite : numberValue?.finite? n = some j → j.Sound := by
    intro hj
    rw [numberValue?.finite?] at hj
    split at hj
    case h_1 negative rank _ =>
      cases hj
      exact ⟨negative, rank, rfl⟩
    case h_2 => cases hj
  unfold numberValue? at h
  split at h
  case h_1 i _ =>
    split at h
    case isTrue hrange =>
      cases h
      show Int64.minValue.toInt ≤ i ∧ i < UInt64.size
      simpa only [Bool.and_eq_true, decide_eq_true_eq] using hrange
    case isFalse => exact hfinite h
  case h_2 => exact hfinite h

mutual

/-- A text can stand for the value that a document stands for. -/
theorem sound_of_value? (d : Document) {depth : Nat} {j : Json} (h : d.value? depth = some j) :
    j.Sound := by
  match d with
  | .null | .bool b =>
    cases h
    trivial
  | .number n => exact sound_of_numberValue? h
  | .string pieces =>
    obtain ⟨s, -, rfl⟩ := Option.map_eq_some_iff.1 h
    trivial
  | .array items =>
    rw [value?] at h
    obtain ⟨-, h⟩ := Option.ite_none_left_eq_some.1 h
    obtain ⟨values, hvalues, rfl⟩ := Option.map_eq_some_iff.1 h
    exact itemsSound_of_itemValues? items hvalues
  | .object members =>
    rw [value?] at h
    obtain ⟨-, h⟩ := Option.ite_none_left_eq_some.1 h
    obtain ⟨entries, hentries, rfl⟩ := Option.map_eq_some_iff.1 h
    have hsound := (membersSound_iff entries).1 (membersSound_of_memberValues? members hentries)
    exact ⟨Fields.nodup_names_ofList entries,
      (membersSound_iff _).2 fun entry hentry => hsound entry (Fields.mem_ofList hentry)⟩

theorem itemsSound_of_itemValues? (items : List Document) {depth : Nat} {values : List Json}
    (h : itemValues? depth items = some values) : ItemsSound values := by
  match items with
  | [] =>
    cases h
    trivial
  | item :: items =>
    obtain ⟨first, hfirst, h⟩ := Option.bind_eq_some_iff.1 h
    obtain ⟨rest, hrest, h⟩ := Option.bind_eq_some_iff.1 h
    cases h
    exact ⟨sound_of_value? item hfirst, itemsSound_of_itemValues? items hrest⟩

theorem membersSound_of_memberValues? (members : List (List Piece × Document)) {depth : Nat}
    {entries : List (String × Json)} (h : memberValues? depth members = some entries) :
    MembersSound entries := by
  match members with
  | [] =>
    cases h
    trivial
  | (name, document) :: members =>
    obtain ⟨name, -, h⟩ := Option.bind_eq_some_iff.1 h
    obtain ⟨first, hfirst, h⟩ := Option.bind_eq_some_iff.1 h
    obtain ⟨rest, hrest, h⟩ := Option.bind_eq_some_iff.1 h
    cases h
    exact ⟨sound_of_value? document hfirst, membersSound_of_memberValues? members hrest⟩

end

/-! ## Names as they are written -/

mutual

/-- No object within the document repeats a name, in whatever way the name is written. -/
def NamesDistinct : Document → Prop
  | .array items => ItemsNamesDistinct items
  | .object members =>
    (members.map fun member => resolve? member.1).Nodup ∧ MembersNamesDistinct members
  | .null | .bool _ | .number _ | .string _ => True

/-- No object within the items repeats a name. -/
def ItemsNamesDistinct : List Document → Prop
  | [] => True
  | item :: items => NamesDistinct item ∧ ItemsNamesDistinct items

/-- No object within what the members hold repeats a name. -/
def MembersNamesDistinct : List (List Piece × Document) → Prop
  | [] => True
  | (_, document) :: members => NamesDistinct document ∧ MembersNamesDistinct members

end

end Document

/-- A name is written in such a way that it is read back. -/
theorem resolve?_written (name : String) :
    Document.resolve? (name.toList.map Piece.ofChar) = some name := by
  rw [Document.resolve?, Piece.resolve?_map_ofChar, Option.map_some, String.ofList_toList]

theorem map_resolve?_memberDocuments (members : List (String × Json)) :
    (memberDocuments members).map (fun member => Document.resolve? member.1) =
      (Fields.names members).map some := by
  induction members with
  | nil => rfl
  | cons member members ih =>
    obtain ⟨name, value⟩ := member
    rw [memberDocuments, List.map_cons, ih, resolve?_written]
    rfl

mutual

/-- The text of a value for which a text can stand repeats no name. -/
theorem namesDistinct_document (j : Json) (h : j.Sound) : j.document.NamesDistinct := by
  match j with
  | .null | .bool b | .integer i | .string s => trivial
  | .double n =>
    obtain ⟨negative, rank, rfl⟩ := h
    trivial
  | .array items => exact itemsNamesDistinct_itemDocuments items h
  | .object members =>
    refine ⟨?_, membersNamesDistinct_memberDocuments members h.2⟩
    rw [map_resolve?_memberDocuments]
    exact List.Nodup.map (Option.some_injective String) h.1

theorem itemsNamesDistinct_itemDocuments (items : List Json) (h : ItemsSound items) :
    Document.ItemsNamesDistinct (itemDocuments items) := by
  match items with
  | [] => trivial
  | item :: items =>
    exact ⟨namesDistinct_document item h.1, itemsNamesDistinct_itemDocuments items h.2⟩

theorem membersNamesDistinct_memberDocuments (members : List (String × Json))
    (h : MembersSound members) : Document.MembersNamesDistinct (memberDocuments members) := by
  match members with
  | [] => trivial
  | (_, value) :: members =>
    exact ⟨namesDistinct_document value h.1, membersNamesDistinct_memberDocuments members h.2⟩

end

/-- What a text stands for is something that a text can stand for. -/
theorem sound_of_read? {text : List Char} {j : Json} (h : read? text = some j) : j.Sound := by
  obtain ⟨d, -, hd⟩ := Option.bind_eq_some_iff.1 h
  exact Document.sound_of_value? d hd

end Json

end LooseRecords
