import LooseRecords.Proofs.Fields
import LooseRecords.Proofs.Json.Blank
import LooseRecords.Proofs.Json.Document
import LooseRecords.Proofs.Number.Shortened
import LooseRecords.Value.Json

/-!
# The grammar of JSON

Which texts are JSON, and which values they denote. `Json.Denotes depth` admits at most `depth`
containers within each other and only numbers that finite arithmetic can compute; apart from that it
is the grammar of JSON, with blanks around all marks. A surrogate is written only as one of a pair,
since by itself it is no character.

`Json.read?_of_denotes` says that each text of the grammar is read as the value that it denotes.
-/

namespace LooseRecords

namespace Json

/-! ## Strings -/

/-- The characters with an escape of their own, behind the letters that they are written with. -/
def escapes : List (Char × Char) :=
  [('"', '"'), ('\\', '\\'), ('/', '/'), ('b', '\x08'), ('f', '\x0c'), ('n', '\n'), ('r', '\r'),
    ('t', '\t')]

theorem unescape?_eq_some_iff {letter c : Char} :
    Token.unescape? letter = some c ↔ (letter, c) ∈ escapes := by
  constructor
  · intro h
    unfold Token.unescape? at h
    split at h
    case isTrue hself =>
      cases h
      simp only [Bool.or_eq_true, decide_eq_true_eq] at hself
      rcases hself with (rfl | rfl) | rfl <;> simp [escapes]
    case isFalse =>
      repeat' split at h
      all_goals cases h
      all_goals
        subst letter
        simp [escapes]
  · intro h
    simp only [escapes, List.mem_cons, Prod.mk.injEq, List.not_mem_nil, or_false] at h
    rcases h with ⟨rfl, rfl⟩ | ⟨rfl, rfl⟩ | ⟨rfl, rfl⟩ | ⟨rfl, rfl⟩ | ⟨rfl, rfl⟩ | ⟨rfl, rfl⟩ |
      ⟨rfl, rfl⟩ | ⟨rfl, rfl⟩ <;> rfl

/-- Four hexadecimal digits and the number that they write. -/
inductive Hex : List Char → Nat → Prop where
  | digits {a b c d : Char} {p q r s : Nat} (ha : Token.hexValue? a = some p)
    (hb : Token.hexValue? b = some q) (hc : Token.hexValue? c = some r)
    (hd : Token.hexValue? d = some s) : Hex [a, b, c, d] (16 * (16 * (16 * p + q) + r) + s)

/-- What may stand between quotation marks, and the characters that it denotes. -/
inductive Literal : List Char → List Char → Prop where
  | nil : Literal [] []
  /-- A character that is no control character stands for itself. -/
  | char {c : Char} {text chars : List Char} (hquote : c ≠ '"') (hbackslash : c ≠ '\\')
    (hcontrol : 0x20 ≤ c.toNat) (h : Literal text chars) : Literal (c :: text) (c :: chars)
  | escape {letter c : Char} {text chars : List Char} (hc : (letter, c) ∈ escapes)
    (h : Literal text chars) : Literal ('\\' :: letter :: text) (c :: chars)
  | code {digits text chars : List Char} {n : Nat} (hn : Hex digits n)
    (hscalar : n < 0xD800 ∨ 0xE000 ≤ n) (h : Literal text chars) :
    Literal ('\\' :: 'u' :: (digits ++ text)) (Char.ofNat n :: chars)
  /-- A character beyond U+FFFF. -/
  | pair {first second text chars : List Char} {high low : Nat} (hfirst : Hex first high)
    (hhigh : 0xD800 ≤ high ∧ high < 0xDC00) (hsecond : Hex second low)
    (hlow : 0xDC00 ≤ low ∧ low < 0xE000) (h : Literal text chars) :
    Literal ('\\' :: 'u' :: (first ++ '\\' :: 'u' :: (second ++ text)))
      (Piece.pair high low :: chars)

/-! ## Values -/

/-- The text holds nothing but blanks of JSON. -/
def Blanks (text : List Char) : Prop := ∀ c ∈ text, Token.isBlank c = true

mutual

/-- The text is JSON and denotes the value; at most `depth` containers lie within each other. -/
inductive Denotes : Nat → List Char → Value → Prop where
  | null {depth : Nat} : Denotes depth "null".toList .null
  | bool {depth : Nat} (b : Bool) :
    Denotes depth (if b then "true".toList else "false".toList) (.bool b)
  /-- A number that is computed from the digits that count, or an integer of 64 bits. -/
  | number {depth : Nat} {n : Numeral} {text : List Char} {d : Decimal} {rank : Fin Rank.count}
    (h : n.Spells text) (hjson : n.OfJson) (hkeeps : n.Keeps d) (hcomputes : d.Computes rank) :
    Denotes depth text (.number (.finite n.negative rank))
  | string {depth : Nat} {text chars : List Char} (h : Literal text chars) :
    Denotes depth ('"' :: (text ++ ['"'])) (.string (String.ofList chars))
  | emptyArray {depth : Nat} {blanks : List Char} (h : Blanks blanks) :
    Denotes (depth + 1) ('[' :: (blanks ++ [']'])) (.array [])
  | array {depth : Nat} {text : List Char} {items : List Value}
    (h : DenotesItems depth text items) :
    Denotes (depth + 1) ('[' :: (text ++ [']'])) (.array items)
  | emptyObject {depth : Nat} {blanks : List Char} (h : Blanks blanks) :
    Denotes (depth + 1) ('\x7b' :: (blanks ++ ['\x7d'])) (.object [])
  /-- A name that is repeated takes its last value and its first place. -/
  | object {depth : Nat} {text : List Char} {fields : List (String × Value)}
    (h : DenotesMembers depth text fields) :
    Denotes (depth + 1) ('\x7b' :: (text ++ ['\x7d'])) (.object (Fields.ofList fields))

/-- The text is a value with blanks around it. -/
inductive DenotesItem : Nat → List Char → Value → Prop where
  | padded {depth : Nat} {front text behind : List Char} {value : Value} (hfront : Blanks front)
    (h : Denotes depth text value) (hbehind : Blanks behind) :
    DenotesItem depth (front ++ (text ++ behind)) value

/-- The text is values with commas between them. -/
inductive DenotesItems : Nat → List Char → List Value → Prop where
  | last {depth : Nat} {text : List Char} {value : Value} (h : DenotesItem depth text value) :
    DenotesItems depth text [value]
  | more {depth : Nat} {text rest : List Char} {value : Value} {values : List Value}
    (h : DenotesItem depth text value) (hrest : DenotesItems depth rest values) :
    DenotesItems depth (text ++ ',' :: rest) (value :: values)

/-- The text is a name with blanks around it, a colon, and a value with blanks around it. -/
inductive DenotesMember : Nat → List Char → String × Value → Prop where
  | named {depth : Nat} {front name chars behind text : List Char} {value : Value}
    (hfront : Blanks front) (hname : Literal name chars) (hbehind : Blanks behind)
    (h : DenotesItem depth text value) :
    DenotesMember depth (front ++ (('"' :: (name ++ ['"'])) ++ (behind ++ ':' :: text)))
      (String.ofList chars, value)

/-- The text is members with commas between them. -/
inductive DenotesMembers : Nat → List Char → List (String × Value) → Prop where
  | last {depth : Nat} {text : List Char} {field : String × Value}
    (h : DenotesMember depth text field) : DenotesMembers depth text [field]
  | more {depth : Nat} {text rest : List Char} {field : String × Value}
    {fields : List (String × Value)} (h : DenotesMember depth text field)
    (hrest : DenotesMembers depth rest fields) :
    DenotesMembers depth (text ++ ',' :: rest) (field :: fields)

end

/-! ## Strings are read -/

/-- What may stand between quotation marks, piece by piece. -/
inductive Pieces : List Char → List Piece → Prop where
  | nil : Pieces [] []
  | char {c : Char} {text : List Char} {pieces : List Piece} (hquote : c ≠ '"')
    (hbackslash : c ≠ '\\') (hcontrol : 0x20 ≤ c.toNat) (h : Pieces text pieces) :
    Pieces (c :: text) (.char c :: pieces)
  | escape {letter c : Char} {text : List Char} {pieces : List Piece} (hc : (letter, c) ∈ escapes)
    (h : Pieces text pieces) : Pieces ('\\' :: letter :: text) (.char c :: pieces)
  | code {digits text : List Char} {pieces : List Piece} {n : Nat} (hn : Hex digits n)
    (h : Pieces text pieces) : Pieces ('\\' :: 'u' :: (digits ++ text)) (.unit n :: pieces)

/-- What denotes characters consists of pieces that stand for them. -/
theorem Literal.exists_pieces {text chars : List Char} (h : Literal text chars) :
    ∃ pieces, Pieces text pieces ∧ Piece.resolve? pieces = some chars := by
  induction h with
  | nil => exact ⟨[], .nil, by simp [Piece.resolve?]⟩
  | char hquote hbackslash hcontrol _ ih =>
    obtain ⟨pieces, hpieces, hchars⟩ := ih
    exact ⟨_, .char hquote hbackslash hcontrol hpieces, by simp [Piece.resolve?, hchars]⟩
  | escape hc _ ih =>
    obtain ⟨pieces, hpieces, hchars⟩ := ih
    exact ⟨_, .escape hc hpieces, by simp [Piece.resolve?, hchars]⟩
  | code hn hscalar _ ih =>
    obtain ⟨pieces, hpieces, hchars⟩ := ih
    exact ⟨_, .code hn hpieces, by rw [Piece.resolve?_unit hscalar, hchars, Option.map_some]⟩
  | pair hfirst hhigh hsecond hlow _ ih =>
    obtain ⟨pieces, hpieces, hchars⟩ := ih
    exact ⟨_, .code hfirst (.code hsecond hpieces),
      by rw [Piece.resolve?_pair hhigh hlow, hchars, Option.map_some]⟩

namespace Token

namespace Scan

/-- Four hexadecimal digits are read as the code unit that they write. -/
theorem foldlM_hex {digits : List Char} {n : Nat} (h : Hex digits n) (pieces : List Piece)
    (found : List Token) :
    digits.foldlM step ⟨.code pieces 0 0, found⟩ = some ⟨.string (.unit n :: pieces), found⟩ := by
  obtain ⟨ha, hb, hc, hd⟩ := h
  simp [step, ha, hb, hc, hd]

/-- What consists of pieces is read as these. -/
theorem foldlM_pieces {text : List Char} {pieces : List Piece} (h : Pieces text pieces)
    (before : List Piece) (found : List Token) :
    text.foldlM step ⟨.string before, found⟩ =
      some ⟨.string (pieces.reverse ++ before), found⟩ := by
  induction h generalizing before with
  | nil => rfl
  | @char c text pieces hquote hbackslash hcontrol _ ih =>
    have hstep : step ⟨.string before, found⟩ c = some ⟨.string (.char c :: before), found⟩ := by
      simp [step, hquote, hbackslash, Nat.not_lt.2 hcontrol]
    rw [List.foldlM_cons, hstep]
    show text.foldlM step ⟨.string (.char c :: before), found⟩ = _
    rw [ih]
    simp
  | @escape letter c text pieces hc _ ih =>
    rw [← unescape?_eq_some_iff] at hc
    have hletter : letter ≠ 'u' := by
      rintro rfl
      cases hc
    have hstep : step ⟨.escape before, found⟩ letter =
        some ⟨.string (.char c :: before), found⟩ := by
      simp [step, hletter, hc]
    show (letter :: text).foldlM step ⟨.escape before, found⟩ = _
    rw [List.foldlM_cons, hstep]
    show text.foldlM step ⟨.string (.char c :: before), found⟩ = _
    rw [ih]
    simp
  | @code digits text pieces n hn _ ih =>
    show (digits ++ text).foldlM step ⟨.code before 0 0, found⟩ = _
    rw [List.foldlM_append, foldlM_hex hn]
    show text.foldlM step ⟨.string (.unit n :: before), found⟩ = _
    rw [ih]
    simp

end Scan

namespace Reads

/-- Pieces between quotation marks are read as a string. -/
theorem pieces {text : List Char} {pieces : List Piece} (h : Pieces text pieces) :
    Reads ('"' :: (text ++ ['"'])) [.string pieces] := by
  intro found
  refine ⟨⟨.between, .string pieces :: found⟩, ?_, rfl⟩
  rw [List.foldlM_cons]
  show (text ++ ['"']).foldlM Scan.step ⟨.string [], found⟩ = _
  rw [List.foldlM_append, Scan.foldlM_pieces h, List.append_nil]
  show some (Scan.mk .between (.string pieces.reverse.reverse :: found)) = _
  rw [List.reverse_reverse]

/-! ## Blanks are passed over -/

theorem blanks_append {blanks text : List Char} {tokens : List Token} (hblanks : Blanks blanks)
    (h : Reads text tokens) : Reads (blanks ++ text) tokens := by
  induction blanks with
  | nil => exact h
  | cons c blanks ih =>
    intro found
    obtain ⟨scan, hrun, hsettle⟩ := ih (fun d hd => hblanks d (List.mem_cons_of_mem _ hd)) found
    have hbegin : Scan.begin found c = ⟨.between, found⟩ := if_pos (hblanks c List.mem_cons_self)
    refine ⟨scan, ?_, hsettle⟩
    show (blanks ++ text).foldlM Scan.step (Scan.begin found c) = some scan
    rw [hbegin, hrun]

theorem append_blanks {blanks text : List Char} {tokens : List Token} (h : Reads text tokens)
    (hblanks : Blanks blanks) : Reads (text ++ blanks) tokens := by
  induction blanks generalizing text with
  | nil => rwa [List.append_nil]
  | cons c blanks ih =>
    have hc : isBlank c = true := hblanks c List.mem_cons_self
    rw [List.append_cons]
    refine ih ?_ fun d hd => hblanks d (List.mem_cons_of_mem _ hd)
    intro found
    obtain ⟨scan, hrun, hsettle⟩ := h found
    -- The blank ends the last word of the text.
    have hends : Scan.endsWord c = true := by simp [Scan.endsWord, hc]
    refine ⟨Scan.begin (tokens.reverse ++ found) c, ?_, ?_⟩
    · rw [List.foldlM_append, hrun]
      show [c].foldlM Scan.step scan = _
      rw [List.foldlM_cons, Scan.step_of_settle hends hsettle]
      rfl
    · rw [Scan.begin, if_pos hc]
      rfl

end Reads

end Token

/-! ## Numbers are read -/

/-- A written number has a value exactly if finite arithmetic computes one, and that is its value.
-/
theorem numberValue?_iff {n : Numeral} {value : Value} :
    (∃ j, Document.numberValue? n = some j ∧ Value.ofJson j = value) ↔
      ∃ d, ∃ rank : Fin Rank.count, n.Keeps d ∧ d.Computes rank ∧
        value = .number (.finite n.negative rank) := by
  have hcomputes : (∃ rank, n.scaled = .finite n.negative rank ∧
      value = .number (.finite n.negative rank)) ↔
      ∃ d, ∃ rank : Fin Rank.count, n.Keeps d ∧ d.Computes rank ∧
        value = .number (.finite n.negative rank) := by
    simp only [Numeral.scaled_eq_finite_iff, true_and]
    constructor
    · rintro ⟨rank, ⟨d, hkeeps, hrank⟩, hvalue⟩
      exact ⟨d, rank, hkeeps, hrank, hvalue⟩
    · rintro ⟨d, rank, hkeeps, hrank, hvalue⟩
      exact ⟨rank, ⟨d, hkeeps, hrank⟩, hvalue⟩
  have hfinite : (∃ j, Document.numberValue?.finite? n = some j ∧ Value.ofJson j = value) ↔
      ∃ rank, n.scaled = .finite n.negative rank ∧ value = .number (.finite n.negative rank) := by
    cases hscaled : n.scaled with
    | finite sign rank =>
      obtain ⟨rfl, -⟩ := Numeral.scaled_eq_finite_iff.1 hscaled
      simp [Document.numberValue?.finite?, hscaled, Value.ofJson, eq_comm]
    | nan | infinite => simp [Document.numberValue?.finite?, hscaled]
  rw [← hcomputes]
  cases hint : n.toInt? with
  | none => simpa only [Document.numberValue?, hint] using hfinite
  | some i =>
    simp only [Document.numberValue?, hint]
    split
    case isFalse => exact hfinite
    case isTrue hrange =>
      -- The value is an integer, and as a number it is what would have been computed.
      rw [Bool.and_eq_true, decide_eq_true_eq, decide_eq_true_eq] at hrange
      have hscaled := Numeral.scaled_eq_number hint hrange.1 hrange.2
      rw [← Numeral.ofInt_of_toInt? hint] at hscaled
      obtain ⟨sign, rank, hofInt⟩ := Number.exists_ofInt_eq hrange.1 hrange.2
      rw [hofInt] at hscaled
      obtain ⟨rfl, -⟩ := Numeral.scaled_eq_finite_iff.1 hscaled
      simp [hscaled, Value.ofJson, hofInt, eq_comm]

/-! ## Texts of the grammar are read -/

theorem ofJson_object (entries : List (String × Json)) :
    Value.ofJson (.object (Fields.ofList entries)) =
      .object (Fields.ofList (Value.ofMembers entries)) := by
  have hentries : ∀ entries, Value.ofMembers entries = Fields.mapEntries Value.ofJson entries := by
    intro entries
    induction entries with
    | nil => rfl
    | cons entry entries ih =>
      rw [Value.ofMembers, ih]
      rfl
  rw [Value.ofJson, hentries, hentries, Fields.ofList_mapEntries]

/-- A document that is read from a text and has a value. -/
def Yields (depth : Nat) (text : List Char) (value : Value) : Prop :=
  ∃ d j, Token.Reads text d.tokens ∧ Document.value? depth d = some j ∧ Value.ofJson j = value

-- The induction follows the derivation. Items and members are never none, since an empty container
-- is derived by a rule of its own.
mutual

theorem yields_of_denotes {depth : Nat} {text : List Char} {value : Value}
    (h : Denotes depth text value) : Yields depth text value := by
  match h with
  | .null => exact ⟨.null, .null, .null, rfl, rfl⟩
  | .bool b => exact ⟨.bool b, .bool b, .bool b, rfl, rfl⟩
  | @Denotes.number _ n _ d rank hn hjson hkeeps hcomputes =>
    obtain ⟨j, hvalue, hj⟩ := numberValue?_iff.2 ⟨d, rank, hkeeps, hcomputes, rfl⟩
    exact ⟨.number n, j, .numeral hn ((Numeral.isJson_iff n).2 hjson), hvalue, hj⟩
  | .string hliteral =>
    obtain ⟨pieces, hpieces, hchars⟩ := hliteral.exists_pieces
    refine ⟨.string pieces, .string (String.ofList _), .pieces hpieces, ?_, rfl⟩
    rw [Document.value?, Document.resolve?, hchars]
    rfl
  | .emptyArray hblanks =>
    refine ⟨.array [], .array [], ?_, rfl, rfl⟩
    exact .cons_mark rfl ((Token.Reads.blanks_append hblanks (.cons_mark rfl .nil)))
  | .array hitems =>
    obtain ⟨documents, values, -, hreads, hvalues, rfl⟩ := exists_of_denotesItems hitems
    refine ⟨.array documents, .array values, .enclose rfl hreads rfl, ?_, rfl⟩
    simp [Document.value?, hvalues]
  | .emptyObject hblanks =>
    refine ⟨.object [], .object [], ?_, rfl, rfl⟩
    exact .cons_mark rfl ((Token.Reads.blanks_append hblanks (.cons_mark rfl .nil)))
  | .object hmembers =>
    obtain ⟨members, values, -, hreads, hvalues, rfl⟩ := exists_of_denotesMembers hmembers
    refine ⟨.object members, .object (Fields.ofList values), .enclose rfl hreads rfl, ?_,
      ofJson_object values⟩
    simp [Document.value?, hvalues]

theorem yields_of_denotesItem {depth : Nat} {text : List Char} {value : Value}
    (h : DenotesItem depth text value) : Yields depth text value := by
  match h with
  | .padded hfront h hbehind =>
    obtain ⟨d, j, hreads, hvalue⟩ := yields_of_denotes h
    exact ⟨d, j, (hreads.append_blanks hbehind).blanks_append hfront, hvalue⟩

theorem exists_of_denotesItems {depth : Nat} {text : List Char} {values : List Value}
    (h : DenotesItems depth text values) :
    ∃ documents js, documents ≠ [] ∧ Token.Reads text (Document.itemsTokens documents) ∧
      Document.itemValues? depth documents = some js ∧ Value.ofItems js = values := by
  match h with
  | .last h =>
    obtain ⟨d, j, hreads, hvalue, rfl⟩ := yields_of_denotesItem h
    exact ⟨[d], [j], by simp, hreads, by simp [Document.itemValues?, hvalue], rfl⟩
  | .more h hrest =>
    obtain ⟨d, j, hreads, hvalue, rfl⟩ := yields_of_denotesItem h
    obtain ⟨documents, js, hne, hrestReads, hvalues, rfl⟩ := exists_of_denotesItems hrest
    refine ⟨d :: documents, j :: js, by simp, ?_, by simp [Document.itemValues?, hvalue, hvalues],
      rfl⟩
    rw [Document.itemsTokens_cons d hne]
    exact hreads.append_mark rfl hrestReads

theorem exists_of_denotesMember {depth : Nat} {text : List Char} {field : String × Value}
    (h : DenotesMember depth text field) :
    ∃ pieces d name j, Token.Reads text (.string pieces :: .colon :: d.tokens) ∧
      Document.resolve? pieces = some name ∧ Document.value? depth d = some j ∧
      field = (name, Value.ofJson j) := by
  match h with
  | .named hfront hname hbehind h =>
    obtain ⟨pieces, hpieces, hchars⟩ := hname.exists_pieces
    obtain ⟨d, j, hreads, hvalue, rfl⟩ := yields_of_denotesItem h
    have hstring := (Token.Reads.pieces hpieces).append_blanks hbehind
    refine ⟨pieces, d, _, j, ?_, by rw [Document.resolve?, hchars, Option.map_some], hvalue, rfl⟩
    have hnamed := hstring.append_mark (c := ':') rfl hreads
    rw [List.append_assoc] at hnamed
    exact hnamed.blanks_append hfront

theorem exists_of_denotesMembers {depth : Nat} {text : List Char} {fields : List (String × Value)}
    (h : DenotesMembers depth text fields) :
    ∃ members js, members ≠ [] ∧ Token.Reads text (Document.membersTokens members) ∧
      Document.memberValues? depth members = some js ∧ Value.ofMembers js = fields := by
  match h with
  | .last h =>
    obtain ⟨pieces, d, name, j, hreads, hname, hvalue, rfl⟩ := exists_of_denotesMember h
    exact ⟨[(pieces, d)], [(name, j)], by simp, hreads,
      by simp [Document.memberValues?, hname, hvalue], rfl⟩
  | .more h hrest =>
    obtain ⟨pieces, d, name, j, hreads, hname, hvalue, rfl⟩ := exists_of_denotesMember h
    obtain ⟨members, js, hne, hrestReads, hvalues, rfl⟩ := exists_of_denotesMembers hrest
    refine ⟨(pieces, d) :: members, (name, j) :: js, by simp, ?_,
      by simp [Document.memberValues?, hname, hvalue, hvalues], rfl⟩
    rw [Document.membersTokens_cons pieces d hne]
    exact hreads.append_mark rfl hrestReads

end

/-- Each text of the grammar, with or without blanks around it, is read as what it denotes. -/
theorem read?_of_denotes {text : List Char} {value : Value}
    (h : DenotesItem depthLimit text value) :
    ∃ j, read? text = some j ∧ Value.ofJson j = value := by
  obtain ⟨d, j, hreads, hvalue, rfl⟩ := yields_of_denotesItem h
  refine ⟨j, ?_, rfl⟩
  rw [read?, Document.read?, hreads.scan?_eq, Option.bind_some, Document.ofTokens?_tokens,
    Option.bind_some, hvalue]

end Json

end LooseRecords
