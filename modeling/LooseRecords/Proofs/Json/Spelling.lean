import LooseRecords.Json.Slots
import LooseRecords.Proofs.Fields
import LooseRecords.Proofs.Json.Text
import Mathlib.Data.List.Forall2

/-!
# Spellings of a structure

A structure may be written in many ways: its parts in any order, those with a value that they take
anyway left out, and parts that nobody knows added. `Json.Faithful` says that what is written for a
thing is one of its spellings and that every spelling is read as that thing; it is shown for texts,
truth values, integers and lists, and `Json.Fills.slot` gives the parts of a structure.
-/

namespace LooseRecords

namespace Json

/-- Which documents may stand for which values. -/
abbrev Spelling := Json → Document → Prop

/-- The one document that a value is written as. -/
def Spelling.written : Spelling := fun j d => d = j.document

/-- An array that spells the items of another, one by one. -/
inductive Spelling.Items (item : Spelling) : Spelling where
  | array {values : List Json} {documents : List Document}
    (h : List.Forall₂ item values documents) : Items item (.array values) (.array documents)

/-! ## Structures -/

/-- The parts of a structure, spelled in another way and in any order. The known names are those
that have defaults. -/
inductive Parts (defaults : Fields Json) (spelling : String → Spelling) :
    Fields Json → Fields Document → Prop where
  | none : Parts defaults spelling [] []
  /-- A part that is there. -/
  | spelled {name : String} {value : Json} {document : Document} {values : Fields Json}
    {documents : Fields Document} (h : spelling name value document)
    (hrest : Parts defaults spelling values documents) :
    Parts defaults spelling ((name, value) :: values) ((name, document) :: documents)
  /-- A part that is left out, having its default. -/
  | omitted {name : String} {value : Json} {values : Fields Json} {documents : Fields Document}
    (h : Fields.get? defaults name = some value)
    (hrest : Parts defaults spelling values documents) :
    Parts defaults spelling ((name, value) :: values) documents
  /-- A part that nobody knows, with whatever it holds. -/
  | unknown {name : String} {document : Document} {values : Fields Json}
    {documents : Fields Document} (h : name ∉ Fields.names defaults)
    (hrest : Parts defaults spelling values documents) :
    Parts defaults spelling values ((name, document) :: documents)
  | reordered {values : Fields Json} {documents other : Fields Document}
    (hrest : Parts defaults spelling values documents) (h : documents.Perm other) :
    Parts defaults spelling values other

/-- The members of an object with their names resolved, if they all are names. -/
def named? (members : List (List Piece × Document)) : Option (Fields Document) :=
  members.mapM fun (name, document) =>
    (Document.resolve? name).map fun name => (name, document)

/-- An object that spells the parts of another one. -/
inductive Spelling.Structure (defaults : Fields Json) (spelling : String → Spelling) :
    Spelling where
  | object {values : Fields Json} {members : List (List Piece × Document)}
    {documents : Fields Document} (hnames : named? members = some documents)
    (h : Parts defaults spelling values documents) :
    Structure defaults spelling (.object values) (.object members)

/-- The documents that the parts of a structure are written as. -/
def writtenParts (values : Fields Json) : Fields Document :=
  values.map fun (name, value) => (name, value.document)

/-- The names of a written object are resolved. -/
theorem named?_memberDocuments (values : Fields Json) :
    named? (memberDocuments values) = some (writtenParts values) := by
  induction values with
  | nil => rfl
  | cons entry values ih =>
    obtain ⟨name, value⟩ := entry
    have hname : Document.resolve? (name.toList.map Piece.ofChar) = some name := by
      rw [Document.resolve?, Piece.resolve?_map_ofChar, Option.map_some, String.ofList_toList]
    rw [named?] at ih
    simp only [memberDocuments, named?, List.mapM_cons, hname, ih, Option.map_some]
    rfl

variable {defaults : Fields Json} {spelling : String → Spelling}

/-- A written object spells another one if its parts do. -/
theorem Spelling.Structure.written {values other : Fields Json}
    (h : Parts defaults spelling values (writtenParts other)) :
    Structure defaults spelling (.object values) (Json.object other).document :=
  .object (named?_memberDocuments other) h

namespace Parts

variable {values : Fields Json} {documents : Fields Document}

/-- Each part may be written as it is. -/
theorem written
    (h : ∀ name value, (name, value) ∈ values → spelling name value value.document) :
    Parts defaults spelling values (writtenParts values) := by
  induction values with
  | nil => exact .none
  | cons entry values ih =>
    exact .spelled (h _ _ List.mem_cons_self)
      (ih fun name value hmem => h name value (List.mem_cons_of_mem _ hmem))

/-- Parts that have their default may be left out. -/
theorem omit_front (h : Parts defaults spelling values documents) {front : Fields Json}
    (hfront : ∀ entry ∈ front, Fields.get? defaults entry.1 = some entry.2) :
    Parts defaults spelling (front ++ values) documents := by
  induction front with
  | nil => exact h
  | cons entry front ih =>
    obtain ⟨hentry, hrest⟩ := List.forall_mem_cons.1 hfront
    exact .omitted hentry (ih hrest)

/-- Of the parts, only those that do not have their default must be spelled. -/
theorem of_changed (h : Parts defaults spelling
      (values.filter fun entry => Fields.get? defaults entry.1 ≠ some entry.2) documents) :
    Parts defaults spelling values documents := by
  generalize hchanged : values.filter _ = changed at h
  -- The parts in front of the first one that is changed have their defaults.
  have hsplit : ∀ {name value rest values},
      (values.filter fun entry => Fields.get? defaults entry.1 ≠ some entry.2) =
        (name, value) :: rest → ∃ front behind, values = front ++ (name, value) :: behind ∧
          (∀ entry ∈ front, Fields.get? defaults entry.1 = some entry.2) ∧
          (behind.filter fun entry => Fields.get? defaults entry.1 ≠ some entry.2) = rest := by
    intro name value rest values hcons
    obtain ⟨front, behind, rfl, hfront, -, hbehind⟩ := List.filter_eq_cons_iff.1 hcons
    exact ⟨front, behind, rfl, by simpa using hfront, hbehind⟩
  induction h generalizing values with
  | none =>
    rw [← List.append_nil values]
    exact .omit_front .none (by simpa using List.filter_eq_nil_iff.1 hchanged)
  | spelled h _ ih =>
    obtain ⟨front, behind, rfl, hfront, hbehind⟩ := hsplit hchanged
    exact .omit_front (.spelled h (ih hbehind)) hfront
  | omitted h _ ih =>
    obtain ⟨front, behind, rfl, hfront, hbehind⟩ := hsplit hchanged
    exact .omit_front (.omitted h (ih hbehind)) hfront
  | unknown h _ ih => exact .unknown h (ih hchanged)
  | reordered _ hperm ih => exact .reordered (ih hchanged) hperm

/-! ## What the parts of a spelling are -/

/-- A known name is the name of a part. -/
theorem mem_names (h : Parts defaults spelling values documents) {name : String}
    (hname : name ∈ Fields.names documents) (hknown : name ∈ Fields.names defaults) :
    name ∈ Fields.names values := by
  induction h with
  | none => exact hname
  | spelled _ _ ih => exact List.mem_cons.2 ((List.mem_cons.1 hname).imp_right ih)
  | omitted _ _ ih => exact List.mem_cons_of_mem _ (ih hname)
  | unknown hunknown _ ih =>
    rcases List.mem_cons.1 hname with rfl | hrest
    · exact absurd hknown hunknown
    · exact ih hrest
  | reordered _ hperm ih => exact ih ((hperm.map Prod.fst).mem_iff.2 hname)

/-- The entries with known names. -/
def known (defaults : Fields Json) (documents : Fields Document) : Fields Document :=
  documents.filter fun entry => (Fields.names defaults).contains entry.1

/-- No known name is repeated. -/
theorem nodup_known (h : Parts defaults spelling values documents)
    (hnodup : (Fields.names values).Nodup) : (Fields.names (known defaults documents)).Nodup := by
  induction h with
  | none => exact .nil
  | @spelled name _ _ values documents _ hrest ih =>
    obtain ⟨hname, hnodup⟩ := List.nodup_cons.1 hnodup
    rw [known, List.filter_cons]
    split
    case isTrue hknown =>
      refine List.nodup_cons.2 ⟨fun hmem => hname ?_, ih hnodup⟩
      have hdocument : name ∈ Fields.names documents :=
        (List.filter_sublist.map Prod.fst).subset hmem
      exact hrest.mem_names hdocument (by simpa using hknown)
    case isFalse => exact ih hnodup
  | omitted _ _ ih => exact ih (List.nodup_cons.1 hnodup).2
  | unknown hunknown _ ih =>
    rw [known, List.filter_cons_of_neg (by simpa using hunknown)]
    exact ih hnodup
  | reordered _ hperm ih => exact ((hperm.filter _).map Prod.fst).nodup_iff.1 (ih hnodup)

/-- Each part is spelled, or it is left out and has its default. -/
theorem spelled_or_omitted (h : Parts defaults spelling values documents)
    (hnodup : (Fields.names values).Nodup) {name : String} {value : Json}
    (hmem : (name, value) ∈ values) (hknown : name ∈ Fields.names defaults) :
    (∃ document, (name, document) ∈ documents ∧ spelling name value document) ∨
      name ∉ Fields.names documents ∧ Fields.get? defaults name = some value := by
  induction h with
  | none => cases hmem
  | @spelled key _ document values _ hspelled _ ih =>
    obtain ⟨hother, hnodup⟩ := List.nodup_cons.1 hnodup
    rcases List.mem_cons.1 hmem with heq | htail
    · cases heq
      exact .inl ⟨document, List.mem_cons_self, hspelled⟩
    · have hne : name ≠ key := fun h => hother (h ▸ List.mem_map.2 ⟨_, htail, rfl⟩)
      rcases ih hnodup htail with ⟨document, hdocument, hspelled⟩ | ⟨hname, hdefault⟩
      · exact .inl ⟨document, List.mem_cons_of_mem _ hdocument, hspelled⟩
      · exact .inr ⟨List.not_mem_cons_of_ne_of_not_mem hne hname, hdefault⟩
  | omitted hdefault hrest ih =>
    obtain ⟨hother, hnodup⟩ := List.nodup_cons.1 hnodup
    rcases List.mem_cons.1 hmem with heq | htail
    · cases heq
      exact .inr ⟨fun hname => hother (hrest.mem_names hname hknown), hdefault⟩
    · exact ih hnodup htail
  | @unknown key _ _ _ hunknown _ ih =>
    have hne : name ≠ key := fun h => hunknown (h ▸ hknown)
    rcases ih hnodup hmem with ⟨document, hdocument, hspelled⟩ | ⟨hname, hdefault⟩
    · exact .inl ⟨document, List.mem_cons_of_mem _ hdocument, hspelled⟩
    · exact .inr ⟨List.not_mem_cons_of_ne_of_not_mem hne hname, hdefault⟩
  | reordered _ hperm ih =>
    rcases ih hnodup hmem with ⟨document, hdocument, hspelled⟩ | ⟨hname, hdefault⟩
    · exact .inl ⟨document, hperm.mem_iff.1 hdocument, hspelled⟩
    · exact .inr ⟨fun hother => hname ((hperm.map Prod.fst).mem_iff.2 hother), hdefault⟩

end Parts

/-! ## Parts that are read -/

/-- What is written for a thing is a spelling of it, and each of its spellings is read as it. -/
structure Faithful {α : Type} (spelling : Spelling) (encode : α → Json)
    (read : Document → Option α) : Prop where
  written : ∀ a, spelling (encode a) (encode a).document
  read_eq : ∀ a document, spelling (encode a) document → read document = some a

namespace Faithful

variable {α : Type} {spelling : Spelling} {encode : α → Json} {read : Document → Option α}

theorem of_written (h : ∀ a, read (encode a).document = some a) :
    Faithful .written encode read where
  written _ := rfl
  read_eq a _ hdocument := hdocument ▸ h a

/-- Different things are written differently. -/
theorem inj (h : Faithful spelling encode read) {a b : α} (heq : encode a = encode b) : a = b := by
  have ha : read (encode a).document = some a := h.read_eq a _ (h.written a)
  have hb : read (encode b).document = some b := h.read_eq b _ (h.written b)
  rw [heq] at ha
  exact Option.some.inj (ha.symm.trans hb)

theorem string : Faithful .written Json.string Document.string? :=
  of_written fun s => by
    rw [document, Document.string?, Document.resolve?, Piece.resolve?_map_ofChar, Option.map_some,
      String.ofList_toList]

theorem bool : Faithful .written Json.bool Document.bool? := of_written fun _ => rfl

theorem int64 : Faithful .written (fun n : Int64 => .integer n.toInt) Document.int64? :=
  of_written fun n => by
    rw [document, Document.int64?, integerNumeral.toInt?]
    simp only [n.minValue_le_toInt, n.toInt_le, decide_true, Bool.and_self, if_true,
      Int64.ofInt_toInt]

theorem optionalString :
    Faithful .written (fun s => (s.map Json.string).getD .null) Document.optionalString? :=
  of_written fun s => by
    cases s with
    | none => rfl
    | some s =>
      show (Document.string? (Json.string s).document).map some = _
      rw [string.read_eq s _ rfl, Option.map_some]

/-- Lists of what is read faithfully are read faithfully. -/
theorem list (h : Faithful spelling encode read) :
    Faithful (.Items spelling) (fun items => .array (items.map encode)) (Document.list? read) where
  written items := by
    refine .array ?_
    induction items with
    | nil => exact .nil
    | cons item items ih => exact .cons (h.written item) ih
  read_eq items d hd := by
    cases hd with
    | @array _ documents hitems =>
      show documents.mapM read = some items
      induction items generalizing documents with
      | nil =>
        cases hitems
        rfl
      | cons item items ih =>
        rw [List.map_cons, List.forall₂_cons_left_iff] at hitems
        obtain ⟨first, rest, hfirst, hrest, rfl⟩ := hitems
        rw [List.mapM_cons, h.read_eq item first hfirst, ih hrest]
        rfl

end Faithful

/-- The places of a structure are filled by its parts: by a spelling, or not at all where a part has
its default. -/
def Fills (defaults : Fields Json) (spelling : String → Spelling) (values : Fields Json)
    (slots : Fields Document) : Prop :=
  ∀ name value, Fields.get? values name = some value →
    (∃ document, Fields.get? slots name = some document ∧ spelling name value document) ∨
      Fields.get? slots name = none ∧ Fields.get? defaults name = some value

theorem Parts.fills {values : Fields Json} {documents : Fields Document}
    (h : Parts defaults spelling values documents)
    (hnames : Fields.names values = Fields.names defaults)
    (hnodup : (Fields.names defaults).Nodup) :
    Fills defaults spelling values (known defaults documents) := by
  intro name value hvalue
  rw [← hnames] at hnodup
  have hmem : (name, value) ∈ values := (Fields.get?_eq_some_iff hnodup _ _).1 hvalue
  have hknown : name ∈ Fields.names defaults := hnames ▸ List.mem_map.2 ⟨_, hmem, rfl⟩
  rcases h.spelled_or_omitted hnodup hmem hknown with
    ⟨document, hdocument, hspelled⟩ | ⟨hname, hd⟩
  · refine .inl ⟨document, ?_, hspelled⟩
    rw [Fields.get?_eq_some_iff (h.nodup_known hnodup)]
    exact List.mem_filter.2 ⟨hdocument, by simpa using hknown⟩
  · refine .inr ⟨?_, hd⟩
    rw [Option.eq_none_iff_forall_ne_some]
    intro document hdocument
    rw [Fields.get?_eq_some_iff (h.nodup_known hnodup)] at hdocument
    exact hname (List.mem_map.2 ⟨_, (List.mem_filter.1 hdocument).1, rfl⟩)

/-- A spelling of a structure fills its places. -/
theorem Spelling.Structure.slots? {values : Fields Json} {d : Document}
    (h : Structure defaults spelling (.object values) d)
    (hnames : Fields.names values = Fields.names defaults)
    (hnodup : (Fields.names defaults).Nodup) :
    ∃ slots, d.slots? (Fields.names defaults) = some slots ∧
      Fills defaults spelling values slots := by
  cases h with
  | @object _ members documents hmembers hparts =>
    refine ⟨Parts.known defaults documents, ?_, hparts.fills hnames hnodup⟩
    have hdistinct := hparts.nodup_known (hnames ▸ hnodup)
    show (named? members).bind _ = _
    rw [hmembers]
    exact if_pos hdistinct

section

variable {values : Fields Json} {slots : Fields Document} {α : Type} {name : String}
  {read : Document → Option α} {a fallback : α}

/-- A part is read as a thing if its spellings are and its default is that thing. -/
theorem Fills.slot_eq (h : Fills defaults spelling values slots) {value : Json}
    (hvalue : Fields.get? values name = some value)
    (hread : ∀ document, spelling name value document → read document = some a)
    (hdefault : Fields.get? defaults name = some value → fallback = a) :
    Document.slot slots name read fallback = some a := by
  rw [Document.slot]
  rcases h name value hvalue with ⟨document, hdocument, hspelled⟩ | ⟨hnone, homitted⟩
  · rw [hdocument]
    exact hread document hspelled
  · rw [hnone, hdefault homitted]

/-- A part that is read faithfully is read as it is, be it spelled or left out. -/
theorem Fills.slot (h : Fills defaults spelling values slots) {encode : α → Json}
    (hread : Faithful (spelling name) encode read)
    (hvalue : Fields.get? values name = some (encode a))
    (hdefault : Fields.get? defaults name = some (encode fallback)) :
    Document.slot slots name read fallback = some a :=
  h.slot_eq hvalue (hread.read_eq a) fun homitted =>
    hread.inj (Option.some.inj (hdefault.symm.trans homitted))

end

end Json

end LooseRecords
