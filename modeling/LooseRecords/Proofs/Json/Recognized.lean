import LooseRecords.Proofs.Json.Grammar

/-!
# Nothing but the grammar is read

The other direction: a text that is read as a value is one of the grammar, and denotes that value.
The scan takes a text apart into tokens with blanks between them (`Json.Spaced`), and the tokens of
a document that has a value derive it. So `Json.read?_iff` characterizes the reader.
-/

namespace LooseRecords

namespace Json

/-! ## Strings -/

/-- Pieces that stand for characters are a text that denotes them. -/
theorem literal_of_pieces {text : List Char} {pieces : List Piece} (h : Pieces text pieces)
    {chars : List Char} (hchars : Piece.resolve? pieces = some chars) : Literal text chars := by
  fun_induction Piece.resolve? pieces generalizing text chars with
  | case1 =>
    cases h
    cases hchars
    exact .nil
  | case2 c pieces ih =>
    obtain ⟨rest, hrest, rfl⟩ := Option.map_eq_some_iff.1 hchars
    cases h with
    | char hquote hbackslash hcontrol h => exact .char hquote hbackslash hcontrol (ih h hrest)
    | escape hc h => exact .escape hc (ih h hrest)
  | case3 high low pieces hhigh hlow ih =>
    obtain ⟨rest, hrest, rfl⟩ := Option.map_eq_some_iff.1 hchars
    rw [Bool.and_eq_true, decide_eq_true_eq, decide_eq_true_eq] at hhigh hlow
    obtain _ | _ | _ | ⟨hfirst, h⟩ := h
    obtain _ | _ | _ | ⟨hsecond, h⟩ := h
    exact .pair hfirst hhigh hsecond hlow (ih h hrest)
  | case4 => cases hchars
  | case5 => cases hchars
  | case6 n low pieces hnoHigh hnoLow ih =>
    obtain ⟨rest, hrest, rfl⟩ := Option.map_eq_some_iff.1 hchars
    simp only [Bool.and_eq_true, decide_eq_true_eq] at hnoHigh hnoLow
    obtain _ | _ | _ | ⟨hn, h⟩ := h
    exact .code hn (by omega) (ih h hrest)
  | case7 => cases hchars
  | case8 n pieces _ hscalar ih =>
    obtain ⟨rest, hrest, rfl⟩ := Option.map_eq_some_iff.1 hchars
    simp only [Bool.and_eq_true, decide_eq_true_eq] at hscalar
    obtain _ | _ | _ | ⟨hn, h⟩ := h
    exact .code hn (by omega) (ih h hrest)

/-! ## Tokens and blanks -/

/-- How a token is written. -/
def Token.Spelled : Token → List Char → Prop
  | .openArray, text => text = ['[']
  | .closeArray, text => text = [']']
  | .openObject, text => text = ['\x7b']
  | .closeObject, text => text = ['\x7d']
  | .colon, text => text = [':']
  | .comma, text => text = [',']
  | .null, text => text = "null".toList
  | .bool b, text => text = if b then "true".toList else "false".toList
  | .number n, text => n.Spells text ∧ n.OfJson
  | .string pieces, text => ∃ inside, Pieces inside pieces ∧ text = '"' :: (inside ++ ['"'])

/-- The text is tokens with blanks in front of them, between them and behind them. -/
inductive Spaced : List Token → List Char → Prop where
  | nil {blanks : List Char} (h : Blanks blanks) : Spaced [] blanks
  | cons {token : Token} {tokens : List Token} {front text rest : List Char}
    (hfront : Blanks front) (h : token.Spelled text) (hrest : Spaced tokens rest) :
    Spaced (token :: tokens) (front ++ (text ++ rest))

theorem Spaced.blank_cons {tokens : List Token} {text : List Char} {c : Char}
    (hc : Token.isBlank c = true) (h : Spaced tokens text) : Spaced tokens (c :: text) := by
  cases h with
  | nil h => exact .nil (List.forall_mem_cons.2 ⟨hc, h⟩)
  | @cons token tokens front text rest hfront h hrest =>
    exact @Spaced.cons token tokens (c :: front) text rest
      (List.forall_mem_cons.2 ⟨hc, hfront⟩) h hrest

theorem Spaced.token_append {token : Token} {tokens : List Token} {text rest : List Char}
    (h : token.Spelled text) (hrest : Spaced tokens rest) :
    Spaced (token :: tokens) (text ++ rest) :=
  .cons (List.forall_mem_nil _) h hrest

theorem Spaced.exists_of_cons {token : Token} {tokens : List Token} {text : List Char}
    (h : Spaced (token :: tokens) text) :
    ∃ front spelled rest, Blanks front ∧ token.Spelled spelled ∧ Spaced tokens rest ∧
      text = front ++ (spelled ++ rest) := by
  cases h with
  | cons hfront h hrest => exact ⟨_, _, _, hfront, h, hrest, rfl⟩

namespace Token

theorem spelled_of_mark? {c : Char} {token : Token} (h : mark? c = some token) :
    token.Spelled [c] := by
  unfold mark? at h
  repeat' split at h
  all_goals cases h
  all_goals
    subst c
    rfl

theorem spelled_of_word? {text : List Char} {token : Token} (h : word? text = some token) :
    token.Spelled text := by
  unfold word? at h
  split at h
  case isTrue hnull =>
    cases h
    exact hnull
  case isFalse =>
  split at h
  case isTrue htrue =>
    cases h
    exact htrue
  case isFalse =>
  split at h
  case isTrue hfalse =>
    cases h
    exact hfalse
  case isFalse =>
    obtain ⟨n, hn, rfl⟩ := Option.map_eq_some_iff.1 h
    obtain ⟨hchars, hjson⟩ := Option.filter_eq_some_iff.1 hn
    exact ⟨Numeral.spells_of_ofChars? hchars, (Numeral.isJson_iff n).1 hjson⟩

/-! ## What the scan has read -/

namespace Scan

/-- A digit of a code unit. -/
theorem run_code {text : List Char} {pieces : List Piece} {digits value : Nat}
    {found tokens : List Token} (h : run ⟨.code pieces digits value, found⟩ text = some tokens) :
    ∃ c d rest, text = c :: rest ∧ hexValue? c = some d ∧
      run (if digits = 3 then ⟨.string (.unit (16 * value + d) :: pieces), found⟩
        else ⟨.code pieces (digits + 1) (16 * value + d), found⟩) rest = some tokens := by
  cases text with
  | nil => cases h
  | cons c rest =>
    rw [run_cons] at h
    obtain ⟨next, hstep, hrun⟩ := Option.bind_eq_some_iff.1 h
    obtain ⟨d, hd, rfl⟩ := Option.map_eq_some_iff.1 hstep
    exact ⟨c, d, rest, rfl, hd, hrun⟩

/-- A whole code unit. -/
theorem run_hex {text : List Char} {pieces : List Piece} {found tokens : List Token}
    (h : run ⟨.code pieces 0 0, found⟩ text = some tokens) :
    ∃ digits n rest, Hex digits n ∧ text = digits ++ rest ∧
      run ⟨.string (.unit n :: pieces), found⟩ rest = some tokens := by
  obtain ⟨a, p, _, rfl, ha, h⟩ := run_code h
  obtain ⟨b, q, _, rfl, hb, h⟩ := run_code h
  obtain ⟨c, r, _, rfl, hc, h⟩ := run_code h
  obtain ⟨d, s, rest, rfl, hd, h⟩ := run_code h
  refine ⟨[a, b, c, d], _, rest, .digits ha hb hc hd, rfl, ?_⟩
  simpa using h

/-- A string ends with a quotation mark or goes on with a piece. -/
theorem run_piece {text : List Char} {before : List Piece} {found tokens : List Token}
    (h : run ⟨.string before, found⟩ text = some tokens) :
    (∃ rest, text = '"' :: rest ∧
      run ⟨.between, .string before.reverse :: found⟩ rest = some tokens) ∨
    ∃ c front rest piece, text = c :: (front ++ rest) ∧
      (∀ {inside pieces}, Pieces inside pieces → Pieces (c :: (front ++ inside)) (piece :: pieces)) ∧
      run ⟨.string (piece :: before), found⟩ rest = some tokens := by
  cases text with
  | nil => cases h
  | cons c text =>
    rw [run_cons] at h
    obtain ⟨next, hstep, hrun⟩ := Option.bind_eq_some_iff.1 h
    simp only [step] at hstep
    split at hstep
    case isTrue hquote =>
      cases hstep
      exact .inl ⟨text, hquote ▸ rfl, hrun⟩
    case isFalse hquote =>
    right
    split at hstep
    case isTrue hbackslash =>
      cases hstep
      subst hbackslash
      cases text with
      | nil => cases hrun
      | cons letter text =>
        rw [run_cons] at hrun
        obtain ⟨next, hstep, hrun⟩ := Option.bind_eq_some_iff.1 hrun
        simp only [step] at hstep
        split at hstep
        case isTrue hu =>
          cases hstep
          subst hu
          obtain ⟨digits, n, rest, hhex, rfl, hrest⟩ := run_hex hrun
          exact ⟨'\\', 'u' :: digits, rest, .unit n, rfl, .code hhex, hrest⟩
        case isFalse =>
          obtain ⟨d, hd, rfl⟩ := Option.map_eq_some_iff.1 hstep
          exact ⟨'\\', [letter], text, .char d, rfl, .escape (unescape?_eq_some_iff.1 hd), hrun⟩
    case isFalse hbackslash =>
    split at hstep
    case isTrue => cases hstep
    case isFalse hcontrol =>
      cases hstep
      exact ⟨c, [], text, .char c, rfl, .char hquote hbackslash (Nat.not_lt.1 hcontrol), hrun⟩

/-- The rest of a string is pieces and a quotation mark. -/
theorem run_string {text : List Char} {before : List Piece} {found tokens : List Token}
    (h : run ⟨.string before, found⟩ text = some tokens) :
    ∃ inside pieces rest, Pieces inside pieces ∧ text = inside ++ '"' :: rest ∧
      run ⟨.between, .string (before.reverse ++ pieces) :: found⟩ rest = some tokens := by
  -- A piece may take several characters, so the induction is on the length of the text.
  induction hlength : text.length using Nat.strong_induction_on generalizing text before with
  | h length ih =>
    obtain ⟨rest, rfl, hrest⟩ | ⟨c, front, behind, piece, rfl, hpiece, hbehind⟩ := run_piece h
    · exact ⟨[], [], rest, .nil, rfl, by simpa using hrest⟩
    · rw [List.length_cons, List.length_append] at hlength
      obtain ⟨inside, pieces, rest, hpieces, rfl, hrest⟩ := ih _ (by omega) hbehind rfl
      exact ⟨_, _, rest, hpiece hpieces, by simp, by simpa using hrest⟩

/-- A word goes on to where it ends, and is a token. -/
theorem run_word {text read : List Char} {found tokens : List Token}
    (h : run ⟨.word read, found⟩ text = some tokens) :
    ∃ word token rest, text = word ++ rest ∧ word? (read.reverse ++ word) = some token ∧
      run ⟨.between, token :: found⟩ rest = some tokens := by
  induction text generalizing read with
  | nil =>
    obtain ⟨token, hword, htokens⟩ := Option.map_eq_some_iff.1 h
    exact ⟨[], token, [], rfl, by rwa [List.append_nil], congrArg some htokens⟩
  | cons c text ih =>
    rw [run_cons] at h
    obtain ⟨next, hstep, hrun⟩ := Option.bind_eq_some_iff.1 h
    simp only [step] at hstep
    split at hstep
    case isTrue hends =>
      obtain ⟨token, hword, rfl⟩ := Option.map_eq_some_iff.1 hstep
      refine ⟨[], token, c :: text, rfl, by rwa [List.append_nil], ?_⟩
      rw [run_cons]
      exact hrun
    case isFalse =>
      cases hstep
      obtain ⟨word, token, rest, rfl, hword, hrest⟩ := ih hrun
      exact ⟨c :: word, token, rest, rfl, by simpa using hword, hrest⟩

/-- What is read between tokens is further tokens with blanks around them. -/
theorem spaced_of_run {text : List Char} {found tokens : List Token}
    (h : run ⟨.between, found⟩ text = some tokens) :
    ∃ more, tokens = found.reverse ++ more ∧ Spaced more text := by
  induction hlength : text.length using Nat.strong_induction_on generalizing text found with
  | h length ih =>
    cases text with
    | nil =>
      cases h
      exact ⟨[], by simp, .nil (List.forall_mem_nil _)⟩
    | cons c text =>
      rw [List.length_cons] at hlength
      have hrun : run (begin found c) text = some tokens := by rwa [run_cons] at h
      unfold begin at hrun
      split at hrun
      case isTrue hblank =>
        obtain ⟨more, rfl, hmore⟩ := ih _ (by omega) hrun rfl
        exact ⟨more, rfl, hmore.blank_cons hblank⟩
      case isFalse hblank =>
      split at hrun
      case isTrue hquote =>
        subst hquote
        obtain ⟨inside, pieces, rest, hpieces, rfl, hrest⟩ := run_string hrun
        rw [List.length_append, List.length_cons] at hlength
        obtain ⟨more, rfl, hmore⟩ := ih _ (by omega) hrest rfl
        refine ⟨.string pieces :: more, by simp, ?_⟩
        have hstring : (Token.string pieces).Spelled ('"' :: (inside ++ ['"'])) :=
          ⟨inside, hpieces, rfl⟩
        simpa using hmore.token_append hstring
      case isFalse hquote =>
      split at hrun
      case h_1 token hmark =>
        obtain ⟨more, rfl, hmore⟩ := ih _ (by omega) hrun rfl
        exact ⟨token :: more, by simp, hmore.token_append (spelled_of_mark? hmark)⟩
      case h_2 =>
        obtain ⟨word, token, rest, rfl, hword, hrest⟩ := run_word hrun
        rw [List.length_append] at hlength
        obtain ⟨more, rfl, hmore⟩ := ih _ (by omega) hrest rfl
        exact ⟨token :: more, by simp, hmore.token_append (spelled_of_word? hword)⟩

end Scan

/-- A text that has tokens is these tokens with blanks around them. -/
theorem spaced_of_scan? {text : List Char} {tokens : List Token} (h : scan? text = some tokens) :
    Spaced tokens text := by
  obtain ⟨more, rfl, hmore⟩ := Scan.spaced_of_run h
  exact hmore

end Token

/-! ## Derivations -/

/-- A mark stands behind blanks. -/
theorem Spaced.exists_of_mark {mark : Token} {c : Char} {tokens : List Token} {text : List Char}
    (hmark : mark.Spelled = (· = [c])) (h : Spaced (mark :: tokens) text) :
    ∃ blanks rest, Blanks blanks ∧ Spaced tokens rest ∧ text = blanks ++ c :: rest := by
  obtain ⟨front, spelled, rest, hfront, hspelled, hrest, rfl⟩ := h.exists_of_cons
  rw [hmark] at hspelled
  obtain rfl : spelled = [c] := hspelled
  exact ⟨front, rest, hfront, hrest, rfl⟩

/-- Wherever the tokens of the document stand, the text between the blanks in front of them and what
follows them denotes the value. -/
def Derives (depth : Nat) (d : Document) (value : Value) : Prop :=
  ∀ (rest : List Token) (text : List Char), Spaced (d.tokens ++ rest) text →
    ∃ front core behind, Blanks front ∧ Denotes depth core value ∧ Spaced rest behind ∧
      text = front ++ (core ++ behind)

namespace Derives

variable {depth : Nat} {d : Document} {value : Value}

/-- A document of one token. -/
theorem of_token (token : Token) (htokens : d.tokens = [token])
    (h : ∀ text, token.Spelled text → Denotes depth text value) : Derives depth d value := by
  intro rest text hspaced
  rw [htokens] at hspaced
  obtain ⟨front, spelled, behind, hfront, hspelled, hbehind, rfl⟩ := hspaced.exists_of_cons
  exact ⟨front, spelled, behind, hfront, h spelled hspelled, hbehind, rfl⟩

/-- A document between two marks. -/
theorem enclosed {a b : Char} {first last : Token} {inside : List Token}
    (htokens : d.tokens = first :: (inside ++ [last])) (hfirst : first.Spelled = (· = [a]))
    (h : ∀ rest text, Spaced (inside ++ last :: rest) text → ∃ core behind,
      Denotes depth (a :: (core ++ [b])) value ∧ Spaced rest behind ∧
        text = core ++ b :: behind) : Derives depth d value := by
  intro rest text hspaced
  rw [htokens, List.cons_append, List.append_assoc] at hspaced
  obtain ⟨front, _, hfront, hinside, rfl⟩ := hspaced.exists_of_mark hfirst
  obtain ⟨core, behind, hcore, hbehind, rfl⟩ := h _ _ hinside
  exact ⟨front, _, behind, hfront, hcore, hbehind, by simp⟩

variable {mark : Token} {c : Char} {tokens : List Token} {text : List Char}

/-- In front of a mark, the text denotes the value as an item. -/
theorem item (h : Derives depth d value) (hmark : mark.Spelled = (· = [c]))
    (hspaced : Spaced (d.tokens ++ mark :: tokens) text) :
    ∃ item rest, DenotesItem depth item value ∧ Spaced tokens rest ∧ text = item ++ c :: rest := by
  obtain ⟨front, core, behind, hfront, hcore, hbehind, rfl⟩ := h _ _ hspaced
  obtain ⟨blanks, rest, hblanks, hrest, rfl⟩ := hbehind.exists_of_mark hmark
  exact ⟨_, rest, .padded hfront hcore hblanks, hrest, by simp⟩

/-- In front of a mark, the text with a name denotes the value as a member. -/
theorem member (h : Derives depth d value) (hmark : mark.Spelled = (· = [c]))
    {pieces : List Piece} {name : String} (hname : Document.resolve? pieces = some name)
    (hspaced : Spaced (.string pieces :: .colon :: (d.tokens ++ mark :: tokens)) text) :
    ∃ member rest, DenotesMember depth member (name, value) ∧ Spaced tokens rest ∧
      text = member ++ c :: rest := by
  obtain ⟨chars, hchars, rfl⟩ := Option.map_eq_some_iff.1 hname
  obtain ⟨front, _, _, hfront, ⟨inside, hinside, rfl⟩, hcolon, rfl⟩ := hspaced.exists_of_cons
  obtain ⟨blanks, _, hblanks, hvalue, rfl⟩ := hcolon.exists_of_mark (c := ':') rfl
  obtain ⟨item, rest, hitem, hrest, rfl⟩ := h.item hmark hvalue
  exact ⟨_, rest, .named hfront (literal_of_pieces hinside hchars) hblanks hitem, hrest, by simp⟩

end Derives

namespace Document

/-- Each container takes one from the depth that is left. -/
theorem value?_array_eq_some_iff {depth : Nat} {items : List Document} {j : Json} :
    (array items).value? depth = some j ↔
      ∃ less js, depth = less + 1 ∧ itemValues? less items = some js ∧ .array js = j := by
  cases depth with
  | zero => simp [value?]
  | succ less => simp [value?]

theorem value?_object_eq_some_iff {depth : Nat} {members : List (List Piece × Document)}
    {j : Json} :
    (object members).value? depth = some j ↔
      ∃ less entries, depth = less + 1 ∧ memberValues? less members = some entries ∧
        .object (Fields.ofList entries) = j := by
  cases depth with
  | zero => simp [value?]
  | succ less => simp [value?]

end Document

-- The induction follows the document, as that of its value does.
mutual

/-- The text of a document that has a value denotes it. -/
theorem derives_of_value? {depth : Nat} (d : Document) {j : Json}
    (h : d.value? depth = some j) : Derives depth d (Value.ofJson j) := by
  match d with
  | .null =>
    cases h
    refine .of_token .null (by rw [Document.tokens]) ?_
    rintro _ rfl
    exact .null
  | .bool b =>
    cases h
    refine .of_token (.bool b) (by rw [Document.tokens]) ?_
    rintro _ rfl
    exact .bool b
  | .number n =>
    obtain ⟨d, rank, hkeeps, hcomputes, hvalue⟩ := numberValue?_iff.1 ⟨j, h, rfl⟩
    rw [hvalue]
    refine .of_token (.number n) (by rw [Document.tokens]) ?_
    rintro text ⟨hspells, hjson⟩
    exact .number hspells hjson hkeeps hcomputes
  | .string pieces =>
    obtain ⟨name, hname, rfl⟩ := Option.map_eq_some_iff.1 h
    obtain ⟨chars, hchars, rfl⟩ := Option.map_eq_some_iff.1 hname
    refine .of_token (.string pieces) (by rw [Document.tokens]) ?_
    rintro _ ⟨inside, hinside, rfl⟩
    exact .string (literal_of_pieces hinside hchars)
  | .array items =>
    obtain ⟨depth, js, rfl, hitems, rfl⟩ := Document.value?_array_eq_some_iff.1 h
    refine .enclosed (a := '[') (b := ']') (by rw [Document.tokens]) rfl fun rest text hspaced => ?_
    by_cases hne : items = []
    · subst hne
      cases hitems
      obtain ⟨blanks, behind, hblanks, hbehind, rfl⟩ := hspaced.exists_of_mark (c := ']') rfl
      exact ⟨blanks, behind, .emptyArray hblanks, hbehind, rfl⟩
    · obtain ⟨inside, behind, hdenotes, hbehind, rfl⟩ := items_of_spaced items hne hitems hspaced
      exact ⟨inside, behind, .array hdenotes, hbehind, rfl⟩
  | .object members =>
    obtain ⟨depth, entries, rfl, hmembers, rfl⟩ := Document.value?_object_eq_some_iff.1 h
    rw [ofJson_object]
    refine .enclosed (a := '\x7b') (b := '\x7d') (by rw [Document.tokens]) rfl
      fun rest text hspaced => ?_
    by_cases hne : members = []
    · subst hne
      cases hmembers
      obtain ⟨blanks, behind, hblanks, hbehind, rfl⟩ := hspaced.exists_of_mark (c := '\x7d') rfl
      exact ⟨blanks, behind, .emptyObject hblanks, hbehind, rfl⟩
    · obtain ⟨inside, behind, hdenotes, hbehind, rfl⟩ :=
        members_of_spaced members hne hmembers hspaced
      exact ⟨inside, behind, .object hdenotes, hbehind, rfl⟩

theorem items_of_spaced {depth : Nat} (items : List Document) (hne : items ≠ []) {js : List Json}
    (h : Document.itemValues? depth items = some js) {rest : List Token} {text : List Char}
    (hspaced : Spaced (Document.itemsTokens items ++ Token.closeArray :: rest) text) :
    ∃ inside behind, DenotesItems depth inside (Value.ofItems js) ∧ Spaced rest behind ∧
      text = inside ++ ']' :: behind := by
  match items with
  | item :: items =>
    simp only [Document.itemValues?, Option.bind_eq_bind, Option.bind_eq_some_iff,
      Option.some.injEq] at h
    obtain ⟨j, hvalue, js, hvalues, rfl⟩ := h
    have hderives : Derives depth item (Value.ofJson j) := derives_of_value? item hvalue
    by_cases hmore : items = []
    · subst hmore
      cases hvalues
      obtain ⟨inside, behind, hinside, hbehind, rfl⟩ := hderives.item (c := ']') rfl hspaced
      exact ⟨inside, behind, .last hinside, hbehind, rfl⟩
    · rw [Document.itemsTokens_cons item hmore, List.append_assoc] at hspaced
      obtain ⟨first, _, hfirst, hrest, rfl⟩ := hderives.item (c := ',') rfl hspaced
      obtain ⟨inside, behind, hinside, hbehind, rfl⟩ := items_of_spaced items hmore hvalues hrest
      exact ⟨_, behind, .more hfirst hinside, hbehind, by simp⟩

theorem members_of_spaced {depth : Nat} (members : List (List Piece × Document))
    (hne : members ≠ []) {entries : List (String × Json)}
    (h : Document.memberValues? depth members = some entries) {rest : List Token}
    {text : List Char}
    (hspaced : Spaced (Document.membersTokens members ++ Token.closeObject :: rest) text) :
    ∃ inside behind, DenotesMembers depth inside (Value.ofMembers entries) ∧ Spaced rest behind ∧
      text = inside ++ '\x7d' :: behind := by
  match members with
  | (pieces, d) :: members =>
    simp only [Document.memberValues?, Option.bind_eq_bind, Option.bind_eq_some_iff,
      Option.some.injEq] at h
    obtain ⟨name, hname, j, hvalue, entries, hvalues, rfl⟩ := h
    have hderives : Derives depth d (Value.ofJson j) := derives_of_value? d hvalue
    by_cases hmore : members = []
    · subst hmore
      cases hvalues
      obtain ⟨inside, behind, hinside, hbehind, rfl⟩ :=
        hderives.member (c := '\x7d') rfl hname hspaced
      exact ⟨inside, behind, .last hinside, hbehind, rfl⟩
    · rw [Document.membersTokens_cons pieces d hmore, List.cons_append, List.cons_append,
        List.append_assoc] at hspaced
      obtain ⟨first, _, hfirst, hrest, rfl⟩ := hderives.member (c := ',') rfl hname hspaced
      obtain ⟨inside, behind, hinside, hbehind, rfl⟩ :=
        members_of_spaced members hmore hvalues hrest
      exact ⟨_, behind, .more hfirst hinside, hbehind, by simp⟩

end

/-- A text is read as a value exactly if it is JSON, with or without blanks around it, at most
`depthLimit` containers lie within each other, and all its numbers round to finite ones. The value
is the one that the text denotes. -/
theorem read?_iff {text : List Char} {value : Value} :
    (∃ j, read? text = some j ∧ Value.ofJson j = value) ↔ DenotesItem depthLimit text value := by
  constructor
  · rintro ⟨j, hread, rfl⟩
    obtain ⟨d, hdocument, hvalue⟩ := Option.bind_eq_some_iff.1 hread
    obtain ⟨tokens, hscan, htokens⟩ := Option.bind_eq_some_iff.1 hdocument
    have hspaced := Token.spaced_of_scan? hscan
    rw [Document.ofTokens?_eq_some_iff.1 htokens, ← List.append_nil d.tokens] at hspaced
    obtain ⟨front, core, behind, hfront, hcore, hbehind, rfl⟩ :=
      derives_of_value? d hvalue _ _ hspaced
    cases hbehind with
    | nil hbehind => exact .padded hfront hcore hbehind
  · exact read?_of_denotes

/-! ## Blanks around a text -/

theorem Denotes.item {depth : Nat} {text : List Char} {value : Value}
    (h : Denotes depth text value) : DenotesItem depth text value := by
  simpa using DenotesItem.padded (List.forall_mem_nil _) h (List.forall_mem_nil _)

/-- All blanks of JSON are cut off. -/
theorem Blanks.blank {text : List Char} (h : Blanks text) : Text.Blank text := by
  intro c hc
  have hblank := h c hc
  simp only [Token.isBlank, Bool.or_eq_true, decide_eq_true_eq] at hblank
  rcases hblank with ((rfl | rfl) | rfl) | rfl <;> decide

/-- A trimmed text denotes a value without blanks around it. -/
theorem denotes_of_trim {depth : Nat} {text : List Char} {value : Value}
    (htrim : Text.trim text = text) (h : DenotesItem depth text value) :
    Denotes depth text value := by
  cases h with
  | padded hfront h hbehind =>
    obtain ⟨rfl, rfl⟩ := Text.eq_nil_of_trim hfront.blank hbehind.blank htrim
    rwa [List.nil_append, List.append_nil]

end Json

end LooseRecords
