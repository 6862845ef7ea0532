import LooseRecords.Proofs.Fields
import LooseRecords.Proofs.Json.Document
import LooseRecords.Proofs.Json.Numbers
import LooseRecords.Proofs.Json.Scan

/-!
# Written JSON reads back

`Json.document` is the document that the text of a JSON value is. It determines the value, so no two
values that a text can stand for have the same text: `Json.text_inj`. What the text is read as is
the value with each double read again, `Json.read?_text_reread`; that is the value itself if its
numbers are kept, `Json.read?_text`.
-/

namespace LooseRecords

namespace Json

/-! ## The document of a value -/

mutual

/-- The document that the text of a value is. -/
def document : Json → Document
  | .null => .null
  | .bool b => .bool b
  | .integer i => .number (integerNumeral i)
  | .double (.finite negative rank) => .number (doubleNumeral negative rank.val)
  | .double _ => .null
  | .string s => .string (s.toList.map Piece.ofChar)
  | .array items => .array (itemDocuments items)
  | .object members => .object (memberDocuments members)

/-- The documents of items. -/
def itemDocuments : List Json → List Document
  | [] => []
  | item :: items => document item :: itemDocuments items

/-- The names and documents of members. -/
def memberDocuments : List (String × Json) → List (List Piece × Document)
  | [] => []
  | (name, value) :: members =>
    (name.toList.map Piece.ofChar, document value) :: memberDocuments members

end

theorem resolve?_map_ofChar (s : String) :
    Document.resolve? (s.toList.map Piece.ofChar) = some s := by
  simp [Document.resolve?, Piece.resolve?_map_ofChar]

mutual

/-- The text of a value is read as the tokens of its document. -/
theorem reads_text (j : Json) : Token.Reads j.text j.document.tokens := by
  match j with
  | .null => exact .null
  | .bool true => exact .bool true
  | .bool false => exact .bool false
  | .integer i =>
    rw [text, ← integerNumeral.chars]
    exact .numeral (Numeral.spells_chars (integerNumeral.wellFormed i)) (integerNumeral.isJson i)
  | .double (.finite negative rank) =>
    obtain ⟨hwell, hjson⟩ := doubleNumeral.spec negative rank
    rw [text, ← doubleNumeral.chars]
    exact .numeral (Numeral.spells_chars hwell) hjson
  | .double .nan => exact .null
  | .double (.infinite negative) => exact .null
  | .string s => exact .string s
  | .array items => exact .enclose rfl (reads_itemsText items) rfl
  | .object members => exact .enclose rfl (reads_membersText members) rfl

theorem reads_itemsText (items : List Json) :
    Token.Reads (itemsText items) (Document.itemsTokens (itemDocuments items)) := by
  match items with
  | [] => exact .nil
  | [item] => exact reads_text item
  | item :: next :: items =>
    exact (reads_text item).append_mark rfl (reads_itemsText (next :: items))

theorem reads_membersText (members : List (String × Json)) :
    Token.Reads (membersText members) (Document.membersTokens (memberDocuments members)) := by
  match members with
  | [] => exact .nil
  | [(name, value)] => exact (Token.Reads.string name).append_mark rfl (reads_text value)
  | (name, value) :: next :: members =>
    exact (Token.Reads.string name).append_mark rfl
      ((reads_text value).append_mark rfl (reads_membersText (next :: members)))

end

/-- The text of a value is its document. -/
theorem read?_document (j : Json) : Document.read? j.text = some j.document := by
  rw [Document.read?, (reads_text j).scan?_eq]
  exact Document.ofTokens?_tokens j.document

/-! ## Values -/

mutual

/-- A text can stand for the value: integers have 64 bits, doubles are finite and the names of an
object are distinct. -/
def Sound : Json → Prop
  | .integer i => Int64.minValue.toInt ≤ i ∧ i < UInt64.size
  | .double n => ∃ negative rank, n = .finite negative rank
  | .array items => ItemsSound items
  | .object members => (Fields.names members).Nodup ∧ MembersSound members
  | .null | .bool _ | .string _ => True

/-- A text can stand for each item. -/
def ItemsSound : List Json → Prop
  | [] => True
  | item :: items => Sound item ∧ ItemsSound items

/-- A text can stand for each member. -/
def MembersSound : List (String × Json) → Prop
  | [] => True
  | (_, value) :: members => Sound value ∧ MembersSound members

end

mutual

/-- How many containers of a value lie within each other. -/
def nesting : Json → Nat
  | .array items => itemsNesting items + 1
  | .object members => membersNesting members + 1
  | .null | .bool _ | .integer _ | .double _ | .string _ => 0

/-- How many containers of an item lie within each other, at most. -/
def itemsNesting : List Json → Nat
  | [] => 0
  | item :: items => max (nesting item) (itemsNesting items)

/-- How many containers of a member lie within each other, at most. -/
def membersNesting : List (String × Json) → Nat
  | [] => 0
  | (_, value) :: members => max (nesting value) (membersNesting members)

end

/-! ## Values with their numbers read again -/

mutual

/-- The value with each double read again. -/
def reread : Json → Json
  | .double n => .double n.reread
  | .array items => .array (itemsReread items)
  | .object members => .object (membersReread members)
  | value => value

/-- The items with each double read again. -/
def itemsReread : List Json → List Json
  | [] => []
  | item :: items => reread item :: itemsReread items

/-- The members with each double read again. -/
def membersReread : List (String × Json) → List (String × Json)
  | [] => []
  | (name, value) :: members => (name, reread value) :: membersReread members

end

/-- Every double within the value is read as itself. -/
def NumbersKept (j : Json) : Prop := j.reread = j

instance (j : Json) : Decidable j.NumbersKept := inferInstanceAs (Decidable (j.reread = j))

theorem names_membersReread (members : List (String × Json)) :
    Fields.names (membersReread members) = Fields.names members := by
  induction members with
  | nil => rfl
  | cons member members ih =>
    obtain ⟨name, value⟩ := member
    exact congrArg (name :: ·) ih

-- The induction follows the value; one level of depth is spent on each container.
mutual

/-- The document of a value stands for the value with its numbers read again. -/
theorem value?_document (j : Json) (hsound : j.Sound) {depth : Nat} (hdepth : j.nesting ≤ depth) :
    j.document.value? depth = some j.reread := by
  match j with
  | .null | .bool b => rfl
  | .integer i => exact integerNumeral.numberValue? hsound.1 hsound.2
  | .double n =>
    obtain ⟨negative, rank, rfl⟩ := hsound
    exact numberValue?_doubleNumeral negative rank
  | .string s =>
    rw [document, Document.value?, resolve?_map_ofChar]
    rfl
  | .array items =>
    rw [nesting] at hdepth
    have hne : depth ≠ 0 := by omega
    have hitems : itemsNesting items ≤ depth - 1 := by omega
    rw [document, Document.value?, if_neg hne, itemValues?_itemDocuments items hsound hitems]
    rfl
  | .object members =>
    rw [nesting] at hdepth
    have hne : depth ≠ 0 := by omega
    have hmembers : membersNesting members ≤ depth - 1 := by omega
    have hnames : (Fields.names (membersReread members)).Nodup := by
      rw [names_membersReread]
      exact hsound.1
    rw [document, Document.value?, if_neg hne,
      memberValues?_memberDocuments members hsound.2 hmembers]
    exact congrArg (fun fields => some (Json.object fields))
      (Fields.insertAll_of_nodup [] (membersReread members) hnames)

theorem itemValues?_itemDocuments (items : List Json) (hsound : ItemsSound items) {depth : Nat}
    (hdepth : itemsNesting items ≤ depth) :
    Document.itemValues? depth (itemDocuments items) = some (itemsReread items) := by
  match items with
  | [] => rfl
  | item :: items =>
    rw [itemsNesting] at hdepth
    have hitem : item.nesting ≤ depth := by omega
    have hitems : itemsNesting items ≤ depth := by omega
    rw [itemDocuments, Document.itemValues?, value?_document item hsound.1 hitem,
      itemValues?_itemDocuments items hsound.2 hitems]
    rfl

theorem memberValues?_memberDocuments (members : List (String × Json))
    (hsound : MembersSound members) {depth : Nat} (hdepth : membersNesting members ≤ depth) :
    Document.memberValues? depth (memberDocuments members) = some (membersReread members) := by
  match members with
  | [] => rfl
  | (name, value) :: members =>
    rw [membersNesting] at hdepth
    have hvalue : value.nesting ≤ depth := by omega
    have hmembers : membersNesting members ≤ depth := by omega
    rw [memberDocuments, Document.memberValues?, value?_document value hsound.1 hvalue,
      memberValues?_memberDocuments members hsound.2 hmembers, resolve?_map_ofChar]
    rfl

end

/-- What the text of a value is read as, if a text can stand for the value and it is not nested too
deeply. -/
theorem read?_text_reread {j : Json} (hsound : j.Sound) (hdepth : j.nesting ≤ depthLimit) :
    read? j.text = some j.reread := by
  rw [read?, read?_document]
  exact value?_document j hsound hdepth

/-- The value itself, if its numbers are kept. -/
theorem read?_text {j : Json} (hsound : j.Sound) (hdepth : j.nesting ≤ depthLimit)
    (hkept : j.NumbersKept) : read? j.text = some j := by
  rw [read?_text_reread hsound hdepth, hkept]

/-! ## Texts determine values -/

mutual

/-- The value that a document was written for. -/
def source : Document → Json
  | .null => .null
  | .bool b => .bool b
  | .number n =>
    match n.toInt? with
    | some i => .integer i
    | none => .double n.number
  | .string pieces => .string ((Document.resolve? pieces).getD "")
  | .array items => .array (itemSources items)
  | .object members => .object (memberSources members)

/-- The items that documents were written for. -/
def itemSources : List Document → List Json
  | [] => []
  | item :: items => source item :: itemSources items

/-- The members that documents were written for. -/
def memberSources : List (List Piece × Document) → List (String × Json)
  | [] => []
  | (name, document) :: members =>
    ((Document.resolve? name).getD "", source document) :: memberSources members

end

mutual

/-- The document of a value was written for that value. -/
theorem source_document (j : Json) (h : j.Sound) : source j.document = j := by
  match j with
  | .null | .bool b => rfl
  | .integer i => simp only [document, source, integerNumeral.toInt?]
  | .double n =>
    obtain ⟨negative, rank, rfl⟩ := h
    simp only [document, source, doubleNumeral.toInt?, doubleNumeral.number]
  | .string s => rw [document, source, resolve?_map_ofChar, Option.getD_some]
  | .array items => rw [document, source, itemSources_itemDocuments items h]
  | .object members => rw [document, source, memberSources_memberDocuments members h.2]

theorem itemSources_itemDocuments (items : List Json) (h : ItemsSound items) :
    itemSources (itemDocuments items) = items := by
  match items with
  | [] => rfl
  | item :: items =>
    rw [itemDocuments, itemSources, source_document item h.1, itemSources_itemDocuments items h.2]

theorem memberSources_memberDocuments (members : List (String × Json)) (h : MembersSound members) :
    memberSources (memberDocuments members) = members := by
  match members with
  | [] => rfl
  | (name, value) :: members =>
    rw [memberDocuments, memberSources, resolve?_map_ofChar, Option.getD_some,
      source_document value h.1, memberSources_memberDocuments members h.2]

end

/-- No two values that a text can stand for have the same text, however deeply they are nested. -/
theorem text_inj {j k : Json} (hj : j.Sound) (hk : k.Sound) (h : j.text = k.text) : j = k := by
  have hdocument : j.document = k.document := by
    have hread := read?_document j
    rw [h, read?_document k] at hread
    exact (Option.some.inj hread).symm
  rw [← source_document j hj, hdocument, source_document k hk]

end Json

end LooseRecords
