import LooseRecords.Json.Text
import LooseRecords.Json.Token
import LooseRecords.Proofs.Number.Numeral

/-!
# Scanning written JSON

What the scan finds in a text that was written. `Token.Reads` says that a text holds certain
tokens, wherever it stands; texts that are joined by marks hold the tokens of both.
-/

namespace LooseRecords

namespace Json

namespace Piece

/-- The piece as which a character is written: a control character that has no short escape is
written by its number. -/
def ofChar (c : Char) : Piece :=
  if c.toNat < 0x20 ∧ c.toNat ∉ [8, 9, 10, 12, 13] then .unit c.toNat else .char c

/-- A code unit that is no surrogate stands for a character by itself. -/
theorem resolve?_unit {n : Nat} (h : n < 0xD800 ∨ 0xE000 ≤ n) (pieces : List Piece) :
    resolve? (.unit n :: pieces) = (resolve? pieces).map (Char.ofNat n :: ·) := by
  have hnone : ¬ (0xD800 ≤ n ∧ n < 0xE000) := by omega
  have hhigh : ¬ (0xD800 ≤ n ∧ n < 0xDC00) := by omega
  have hlow : ¬ (0xDC00 ≤ n ∧ n < 0xE000) := by omega
  cases pieces with
  | nil => simp [resolve?, hnone]
  | cons piece pieces => cases piece <;> simp only [resolve?, Bool.and_eq_true, decide_eq_true_eq,
      hnone, hhigh, hlow, if_false]

/-- A pair of surrogates stands for one character. -/
theorem resolve?_pair {high low : Nat} (hhigh : 0xD800 ≤ high ∧ high < 0xDC00)
    (hlow : 0xDC00 ≤ low ∧ low < 0xE000) (pieces : List Piece) :
    resolve? (.unit high :: .unit low :: pieces) =
      (resolve? pieces).map (pair high low :: ·) := by
  simp only [resolve?, Bool.and_eq_true, decide_eq_true_eq, hhigh, hlow, and_self, if_true]

/-- The pieces of a written string stand for that string. -/
theorem resolve?_map_ofChar (chars : List Char) :
    resolve? (chars.map ofChar) = some chars := by
  induction chars with
  | nil => simp [resolve?]
  | cons c chars ih =>
    rw [List.map_cons, ofChar]
    split
    case isTrue h =>
      rw [resolve?_unit (by omega), ih, Char.ofNat_toNat]
      rfl
    case isFalse => simp [resolve?, ih]

end Piece

namespace Token

/-- A hexadecimal digit is read back. -/
theorem hexValue?_hexDigit (n : Nat) : hexValue? (hexDigit n) = some (n % 16) := by
  have hdigit : ∀ m : Fin 16, hexValue? (Nat.digitChar m.val) = some m.val := by decide
  exact hdigit ⟨n % 16, Nat.mod_lt _ (by decide)⟩

namespace Scan

/-- The scan in which a word under way counts as a token. -/
def settle (scan : Scan) : Option Scan :=
  match scan.mode with
  | .between => some scan
  | .word read => (word? read.reverse).map fun token => ⟨.between, token :: scan.tokens⟩
  | _ => none

/-- The end of the text settles a scan. -/
theorem finish_of_settle {scan : Scan} {tokens : List Token}
    (h : scan.settle = some ⟨.between, tokens⟩) : scan.finish = some tokens.reverse := by
  obtain ⟨mode, found⟩ := scan
  cases mode with
  | between =>
    cases h
    rfl
  | word read =>
    obtain ⟨token, hword, hscan⟩ := Option.map_eq_some_iff.1 h
    cases hscan
    simp [finish, hword]
  | string | escape | code => cases h

/-- A character that ends words settles a scan and then begins anew. -/
theorem step_of_settle {scan : Scan} {tokens : List Token} {c : Char} (hc : endsWord c = true)
    (h : scan.settle = some ⟨.between, tokens⟩) : scan.step c = some (begin tokens c) := by
  obtain ⟨mode, found⟩ := scan
  cases mode with
  | between =>
    cases h
    rfl
  | word read =>
    obtain ⟨token, hword, hscan⟩ := Option.map_eq_some_iff.1 h
    cases hscan
    simp [step, hc, hword]
  | string | escape | code => cases h

/-- A mark between two tokens is a token. -/
theorem begin_of_mark? {c : Char} {token : Token} (h : mark? c = some token)
    (found : List Token) : begin found c = ⟨.between, token :: found⟩ := by
  unfold mark? at h
  repeat' split at h
  all_goals cases h
  all_goals
    subst c
    rfl

theorem endsWord_of_mark? {c : Char} {token : Token} (h : mark? c = some token) :
    endsWord c = true := by
  simp [endsWord, h]

/-- The characters that end a word are the blanks, the quotation mark and the marks. -/
theorem mem_of_endsWord {c : Char} (h : endsWord c = true) :
    c ∈ [' ', '\t', '\n', '\r', '"', '[', ']', '\x7b', '\x7d', ':', ','] := by
  unfold endsWord isBlank mark? at h
  repeat' split at h
  all_goals simp_all [or_assoc]

/-- No character of a numeral ends a word. -/
theorem endsWord_of_numeral {c : Char} (h : Numeral.Part c) : endsWord c = false := by
  have hother : ∀ d ∈ [' ', '\t', '\n', '\r', '"', '[', ']', '\x7b', '\x7d', ':', ','],
      ¬ Numeral.Part d := by simp [Numeral.Part]
  rw [Bool.eq_false_iff]
  exact fun hends => hother c (mem_of_endsWord hends) h

/-- The characters of a word are put together. -/
theorem foldlM_word {word : List Char} (h : ∀ c ∈ word, endsWord c = false) (read : List Char)
    (found : List Token) :
    word.foldlM step ⟨.word read, found⟩ = some ⟨.word (word.reverse ++ read), found⟩ := by
  induction word generalizing read with
  | nil => rfl
  | cons c word ih =>
    have hc := h c (by simp)
    have hstep : step ⟨.word read, found⟩ c = some ⟨.word (c :: read), found⟩ := by
      simp [step, hc]
    rw [List.foldlM_cons, hstep]
    show word.foldlM step ⟨.word (c :: read), found⟩ = _
    rw [ih fun d hd => h d (by simp [hd])]
    simp

/-- A character that ends no word begins one. -/
theorem begin_of_not_endsWord {c : Char} (h : endsWord c = false) (found : List Token) :
    begin found c = ⟨.word [c], found⟩ := by
  simp only [endsWord, Bool.or_eq_false_iff, Option.isSome_eq_false_iff,
    Option.isNone_iff_eq_none] at h
  simp_all [begin]

/-- Between two tokens, the characters of a word begin that word. -/
theorem foldlM_between {word : List Char} (hne : word ≠ [])
    (h : ∀ c ∈ word, endsWord c = false) (found : List Token) :
    word.foldlM step ⟨.between, found⟩ = some ⟨.word word.reverse, found⟩ := by
  cases word with
  | nil => exact absurd rfl hne
  | cons c rest =>
    rw [List.foldlM_cons]
    show rest.foldlM step (begin found c) = _
    rw [begin_of_not_endsWord (h c (by simp)), foldlM_word fun d hd => h d (by simp [hd])]
    simp

/-- A written character is read as one piece of a string. -/
theorem foldlM_escape (c : Char) (pieces : List Piece) (found : List Token) :
    (escape c).foldlM step ⟨.string pieces, found⟩ =
      some ⟨.string (.ofChar c :: pieces), found⟩ := by
  -- A backslash and a letter.
  have hshort : ∀ d letter : Char, c.toNat = d.toNat → unescape? letter = some d →
      d.toNat ∈ [8, 9, 10, 12, 13] → ['\\', letter].foldlM step ⟨.string pieces, found⟩ =
        some ⟨.string (.ofChar c :: pieces), found⟩ := by
    intro d letter hd hletter hmem
    obtain rfl := Char.toNat_inj.1 hd
    have hpiece : Piece.ofChar c = .char c := if_neg fun h => h.2 hmem
    have hu : letter ≠ 'u' := by
      intro heq
      subst heq
      cases hletter
    simp [step, hu, hletter, hpiece]
  unfold escape
  split
  case isTrue h => subst h; rfl
  case isFalse hquote =>
  split
  case isTrue h => subst h; rfl
  case isFalse hbackslash =>
  split
  case isTrue h => exact hshort '\x08' 'b' h rfl (by decide)
  case isFalse h8 =>
  split
  case isTrue h => exact hshort '\t' 't' h rfl (by decide)
  case isFalse h9 =>
  split
  case isTrue h => exact hshort '\n' 'n' h rfl (by decide)
  case isFalse h10 =>
  split
  case isTrue h => exact hshort '\x0c' 'f' h rfl (by decide)
  case isFalse h12 =>
  split
  case isTrue h => exact hshort '\r' 'r' h rfl (by decide)
  case isFalse h13 =>
  split
  -- A control character without a short escape: four hexadecimal digits, the first two zero.
  case isTrue hcontrol =>
    have hpiece : Piece.ofChar c = .unit c.toNat :=
      if_pos ⟨hcontrol, by simp [h8, h9, h10, h12, h13]⟩
    have hvalue : 16 * (c.toNat / 16 % 16) + c.toNat % 16 = c.toNat := by omega
    have hzero : hexValue? '0' = some 0 := rfl
    simp [step, hexValue?_hexDigit, hzero, hpiece, hvalue]
  case isFalse hplain =>
    have hpiece : Piece.ofChar c = .char c := if_neg fun h => hplain h.1
    simp [step, hquote, hbackslash, hplain, hpiece]

/-- The written characters of a string are read as its pieces. -/
theorem foldlM_flatMap_escape (chars : List Char) (pieces : List Piece) (found : List Token) :
    (chars.flatMap escape).foldlM step ⟨.string pieces, found⟩ =
      some ⟨.string ((chars.map Piece.ofChar).reverse ++ pieces), found⟩ := by
  induction chars generalizing pieces with
  | nil => rfl
  | cons c chars ih =>
    rw [List.flatMap_cons, List.foldlM_append, foldlM_escape]
    show (chars.flatMap escape).foldlM step ⟨.string (.ofChar c :: pieces), found⟩ = _
    rw [ih]
    simp

end Scan

/-- Between two tokens, the text is read as these tokens. The last of them may still be under way
at the end, if it is a word. -/
def Reads (text : List Char) (tokens : List Token) : Prop :=
  ∀ found, ∃ scan, text.foldlM Scan.step ⟨.between, found⟩ = some scan ∧
    scan.settle = some ⟨.between, tokens.reverse ++ found⟩

namespace Reads

theorem nil : Reads [] [] := fun found => ⟨⟨.between, found⟩, rfl, rfl⟩

/-- The scan of a text that is read as tokens finds these tokens. -/
theorem scan?_eq {text : List Char} {tokens : List Token} (h : Reads text tokens) :
    scan? text = some tokens := by
  obtain ⟨scan, hrun, hsettle⟩ := h []
  rw [scan?, hrun, Option.bind_some, Scan.finish_of_settle hsettle]
  simp

/-- A mark separates two texts. -/
theorem append_mark {a b : List Char} {as bs : List Token} {c : Char} {mark : Token}
    (ha : Reads a as) (hc : mark? c = some mark) (hb : Reads b bs) :
    Reads (a ++ c :: b) (as ++ mark :: bs) := by
  intro found
  obtain ⟨scan, hrun, hsettle⟩ := ha found
  -- The mark ends the last word of `a`, so `b` starts between two tokens.
  obtain ⟨scan', hrun', hsettle'⟩ := hb (mark :: (as.reverse ++ found))
  refine ⟨scan', ?_, by simpa using hsettle'⟩
  rw [List.foldlM_append, hrun]
  show (c :: b).foldlM Scan.step scan = some scan'
  rw [List.foldlM_cons, Scan.step_of_settle (Scan.endsWord_of_mark? hc) hsettle,
    Scan.begin_of_mark? hc]
  exact hrun'

/-- A mark in front of a text. -/
theorem cons_mark {b : List Char} {bs : List Token} {c : Char} {mark : Token}
    (hc : mark? c = some mark) (hb : Reads b bs) : Reads (c :: b) (mark :: bs) :=
  append_mark nil hc hb

/-- A text between two marks. -/
theorem enclose {a : List Char} {as : List Token} {c d : Char} {first last : Token}
    (hc : mark? c = some first) (ha : Reads a as) (hd : mark? d = some last) :
    Reads (c :: (a ++ [d])) (first :: (as ++ [last])) :=
  cons_mark hc (append_mark ha hd nil)

/-- A word that is a token is read as that token. -/
theorem word {text : List Char} {token : Token} (hne : text ≠ [])
    (hends : text.any Scan.endsWord = false) (h : word? text = some token) :
    Reads text [token] := by
  intro found
  refine ⟨_, Scan.foldlM_between hne (by simpa using hends) found, ?_⟩
  simp [Scan.settle, h]

theorem null : Reads "null".toList [.null] := word (by decide) (by decide) rfl

theorem bool (b : Bool) : Reads (if b then "true".toList else "false".toList) [.bool b] := by
  cases b
  · exact word (by decide) (by decide) rfl
  · exact word (by decide) (by decide) rfl

/-- A text of a numeral of JSON is read as that numeral. -/
theorem numeral {n : Numeral} {text : List Char} (h : n.Spells text) (hjson : n.isJson = true) :
    Reads text [.number n] := by
  have hread : Numeral.ofChars? text = some n := Numeral.ofChars?_of_spells h
  have hne : ∀ other, Numeral.ofChars? other = none → text ≠ other := by
    rintro _ hnone rfl
    cases hnone.symm.trans hread
  refine word ?_ ?_ ?_
  · rintro rfl
    cases hread
    cases hjson
  · rw [List.any_eq_false]
    intro c hc
    simp [Scan.endsWord_of_numeral (h.part c hc)]
  · rw [word?, if_neg (hne _ (by decide)), if_neg (hne _ (by decide)), if_neg (hne _ (by decide)),
      hread, Option.filter_some, if_pos hjson]
    rfl

/-- The text of a string is read as its pieces. -/
theorem string (s : String) :
    Reads (stringText s) [.string (s.toList.map Piece.ofChar)] := by
  intro found
  refine ⟨⟨.between, .string (s.toList.map Piece.ofChar) :: found⟩, ?_, rfl⟩
  rw [stringText, List.foldlM_cons]
  show (s.toList.flatMap escape ++ ['"']).foldlM Scan.step ⟨.string [], found⟩ = _
  rw [List.foldlM_append, Scan.foldlM_flatMap_escape, List.append_nil]
  show some (Scan.mk .between (.string (s.toList.map Piece.ofChar).reverse.reverse :: found)) = _
  rw [List.reverse_reverse]

end Reads

/-- A text that starts with a word that is no token has no tokens. -/
theorem scan?_eq_none {text : List Char} (hne : text ≠ [])
    (hends : ∀ c ∈ text, Scan.endsWord c = false) (h : word? text = none) {c : Char}
    (hc : Scan.endsWord c = true) (rest : List Char) :
    scan? (text ++ c :: rest) = none := by
  have hstep : Scan.step ⟨.word text.reverse, []⟩ c = none := by
    simp [Scan.step, hc, h]
  rw [scan?, List.foldlM_append, Scan.foldlM_between hne hends]
  show ((c :: rest).foldlM Scan.step ⟨.word text.reverse, []⟩).bind Scan.finish = none
  rw [List.foldlM_cons, hstep]
  rfl

end Token

end Json

end LooseRecords
