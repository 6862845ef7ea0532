import LooseRecords.Proofs.Json.Text

/-!
# Written JSON in a row

What keeps one JSON text apart from the next. The text of a value has no control character in it, so
it stands on one line: `Json.printed_text`. The text of an object is complete where it ends, so
nothing but blanks may stand behind it: `Json.read?_object_append`.
-/

namespace LooseRecords

namespace Json

/-! ## No control characters -/

/-- No character of the text is a control character. -/
def Printed (text : List Char) : Prop := ∀ c ∈ text, 0x20 ≤ c.toNat

instance (text : List Char) : Decidable (Printed text) :=
  List.decidableBAll (fun c : Char => 0x20 ≤ c.toNat) text

namespace Printed

theorem nil : Printed [] := List.forall_mem_nil _

theorem append {a b : List Char} (ha : Printed a) (hb : Printed b) : Printed (a ++ b) :=
  List.forall_mem_append.2 ⟨ha, hb⟩

theorem cons {c : Char} {text : List Char} (hc : 0x20 ≤ c.toNat) (h : Printed text) :
    Printed (c :: text) := List.forall_mem_cons.2 ⟨hc, h⟩

/-- A text between two marks. -/
theorem enclose {c d : Char} {text : List Char} (hc : 0x20 ≤ c.toNat) (h : Printed text)
    (hd : 0x20 ≤ d.toNat) : Printed (c :: (text ++ [d])) := cons hc (append h (cons hd nil))

theorem numeral {n : Numeral} (h : n.WellFormed) : Printed n.chars := by
  intro c hc
  rcases n.mem_chars h c hc with hdigit | hmem
  · have hrange : 48 ≤ c.toNat ∧ c.toNat ≤ 57 := Char.isDigit_iff_toNat.1 hdigit
    omega
  · have hmarks : Printed ['+', '-', '.', 'e', 'E'] := by decide
    exact hmarks c hmem

theorem hexDigit (n : Nat) : 0x20 ≤ (hexDigit n).toNat := by
  have hdigit : ∀ m : Fin 16, 0x20 ≤ (Nat.digitChar m.val).toNat := by decide
  exact hdigit ⟨n % 16, Nat.mod_lt _ (by decide)⟩

/-- A control character is written by other characters. -/
theorem escape (c : Char) : Printed (escape c) := by
  unfold Json.escape
  -- The seven short escapes are texts of their own.
  iterate 7
    split
    · decide
  split
  case isTrue =>
    have hstart : Printed ['\\', 'u', '0', '0'] := by decide
    exact hstart.append (.cons (hexDigit _) (.cons (hexDigit _) .nil))
  case isFalse hplain => exact .cons (by omega) .nil

theorem string (s : String) : Printed (stringText s) := by
  refine enclose (by decide) ?_ (by decide)
  intro c hc
  obtain ⟨d, -, hd⟩ := List.mem_flatMap.1 hc
  exact escape d c hd

theorem double (n : Number) : Printed (doubleText n) := by
  cases n with
  | finite negative rank =>
    rw [← doubleNumeral.chars]
    exact numeral (doubleNumeral.spec negative rank).1
  | nan | infinite =>
    show Printed "null".toList
    decide

end Printed

mutual

/-- The text of a value has no control character in it. -/
theorem printed_text (j : Json) : Printed j.text := by
  match j with
  | .null | .bool true | .bool false =>
    rw [text]
    decide
  | .integer i =>
    rw [text, ← integerNumeral.chars]
    exact .numeral (integerNumeral.wellFormed i)
  | .double n => exact .double n
  | .string s => exact .string s
  | .array items => exact .enclose (by decide) (printed_itemsText items) (by decide)
  | .object members => exact .enclose (by decide) (printed_membersText members) (by decide)

theorem printed_itemsText (items : List Json) : Printed (itemsText items) := by
  match items with
  | [] => exact .nil
  | [item] => exact printed_text item
  | item :: next :: items =>
    exact (printed_text item).append (.cons (by decide) (printed_itemsText (next :: items)))

theorem printed_membersText (members : List (String × Json)) : Printed (membersText members) := by
  match members with
  | [] => exact .nil
  | [(name, value)] => exact (Printed.string name).append (.cons (by decide) (printed_text value))
  | (name, value) :: next :: members =>
    exact (Printed.string name).append (.cons (by decide) ((printed_text value).append
      (.cons (by decide) (printed_membersText (next :: members)))))

end

/-! ## Nothing behind an object -/

namespace Token

namespace Scan

/-- The scan has gone beyond the tokens that were found: it has found another one or begun one. -/
def Beyond (found : List Token) (scan : Scan) : Prop :=
  ∃ more, scan.tokens = more ++ found ∧ (more ≠ [] ∨ scan.mode ≠ .between)

/-- A character other than a blank is a token or begins one. -/
theorem beyond_begin {c : Char} (h : isBlank c = false) (found : List Token) :
    Beyond found (begin found c) := by
  rw [begin, h]
  simp only [Bool.false_eq_true, if_false]
  split
  · exact ⟨[], rfl, .inr (by simp)⟩
  · cases mark? c with
    | none => exact ⟨[], rfl, .inr (by simp)⟩
    | some token => exact ⟨[token], rfl, .inl (by simp)⟩

/-- A character between two tokens leaves those that were found. -/
theorem tokens_begin (found : List Token) (c : Char) :
    ∃ more, (begin found c).tokens = more ++ found := by
  cases hc : isBlank c with
  | true => exact ⟨[], by simp [begin, hc]⟩
  | false =>
    obtain ⟨more, hmore, -⟩ := beyond_begin hc found
    exact ⟨more, hmore⟩

/-- What was found or begun is not lost. -/
theorem Beyond.step {found : List Token} {scan next : Scan} {c : Char} (h : Beyond found scan)
    (hstep : scan.step c = some next) : Beyond found next := by
  obtain ⟨mode, tokens⟩ := scan
  obtain ⟨more, rfl, hmore⟩ := h
  -- Between two tokens there is a further one already.
  have hbegin : ∀ more, more ≠ [] → Beyond found (begin (more ++ found) c) := by
    intro more hne
    obtain ⟨extra, hextra⟩ := tokens_begin (more ++ found) c
    exact ⟨extra ++ more, by rw [hextra, List.append_assoc], .inl (by simp [hne])⟩
  cases mode with
  | between =>
    cases hstep
    exact hbegin more (hmore.resolve_right (by simp))
  | word read =>
    simp only [Scan.step] at hstep
    split at hstep
    · obtain ⟨token, -, rfl⟩ := Option.map_eq_some_iff.1 hstep
      exact hbegin (token :: more) (by simp)
    · cases hstep
      exact ⟨more, rfl, .inr (by simp)⟩
  | string pieces =>
    simp only [Scan.step] at hstep
    split at hstep
    · cases hstep
      exact ⟨_ :: more, rfl, .inl (by simp)⟩
    · split at hstep
      · cases hstep
        exact ⟨more, rfl, .inr (by simp)⟩
      · split at hstep
        · cases hstep
        · cases hstep
          exact ⟨more, rfl, .inr (by simp)⟩
  | escape pieces =>
    simp only [Scan.step] at hstep
    split at hstep
    · cases hstep
      exact ⟨more, rfl, .inr (by simp)⟩
    · obtain ⟨d, -, rfl⟩ := Option.map_eq_some_iff.1 hstep
      exact ⟨more, rfl, .inr (by simp)⟩
  | code pieces digits value =>
    simp only [Scan.step] at hstep
    obtain ⟨d, -, rfl⟩ := Option.map_eq_some_iff.1 hstep
    split
    · exact ⟨more, rfl, .inr (by simp)⟩
    · exact ⟨more, rfl, .inr (by simp)⟩

theorem Beyond.foldlM {found : List Token} {text : List Char} {scan next : Scan}
    (h : Beyond found scan) (hrun : text.foldlM Scan.step scan = some next) :
    Beyond found next := by
  induction text generalizing scan with
  | nil =>
    cases hrun
    exact h
  | cons c text ih =>
    rw [List.foldlM_cons] at hrun
    obtain ⟨mid, hstep, hrest⟩ := Option.bind_eq_some_iff.1 hrun
    exact ih (h.step hstep) hrest

/-- A text that is not blank, behind tokens, holds another one. -/
theorem beyond_of_foldlM {found : List Token} {text : List Char} {next : Scan}
    (hrun : text.foldlM Scan.step ⟨.between, found⟩ = some next)
    (h : ∃ c ∈ text, isBlank c = false) : Beyond found next := by
  induction text with
  | nil => simp at h
  | cons c text ih =>
    rw [List.foldlM_cons] at hrun
    have hrest : text.foldlM Scan.step (begin found c) = some next := hrun
    cases hc : isBlank c with
    | false => exact (beyond_begin hc found).foldlM hrest
    | true =>
      rw [begin, if_pos hc] at hrest
      obtain ⟨d, hd, hblank⟩ := h
      rcases List.mem_cons.1 hd with rfl | hd
      · rw [hc] at hblank
        cases hblank
      · exact ih hrest ⟨d, hd, hblank⟩

/-- At the end of the text what was begun is complete. -/
theorem Beyond.finish {found tokens : List Token} {scan : Scan} (h : Beyond found scan)
    (hfinish : scan.finish = some tokens) :
    ∃ token more, tokens = found.reverse ++ token :: more := by
  obtain ⟨mode, _⟩ := scan
  obtain ⟨more, rfl, hmore⟩ := h
  -- Tokens are listed with the latest first.
  have hreverse : ∀ more : List Token, more ≠ [] →
      ∃ token rest, (more ++ found).reverse = found.reverse ++ token :: rest := by
    intro more hne
    obtain ⟨token, rest, hmore⟩ := List.exists_cons_of_ne_nil (List.reverse_ne_nil_iff.2 hne)
    exact ⟨token, rest, by rw [List.reverse_append, hmore]⟩
  cases mode with
  | between =>
    cases hfinish
    exact hreverse more (hmore.resolve_right (by simp))
  | word read =>
    obtain ⟨token, -, rfl⟩ := Option.map_eq_some_iff.1 hfinish
    exact hreverse (token :: more) (by simp)
  | string | escape | code => cases hfinish

end Scan

/-- Behind a mark a text that is not blank holds another token, if it holds tokens at all. -/
theorem Reads.scan?_append {a : List Char} {as : List Token} {c : Char} {mark : Token}
    (ha : Reads a as) (hc : mark? c = some mark) {rest : List Char}
    (h : ∃ d ∈ rest, isBlank d = false) {tokens : List Token}
    (hscan : scan? (a ++ [c] ++ rest) = some tokens) :
    ∃ token more, tokens = as ++ [mark] ++ token :: more := by
  obtain ⟨scan, hrun, hsettle⟩ := ha []
  have hclosed : (a ++ [c]).foldlM Scan.step ⟨.between, []⟩ =
      some ⟨.between, mark :: as.reverse⟩ := by
    rw [List.foldlM_append, hrun]
    show ([c]).foldlM Scan.step scan = _
    rw [List.foldlM_cons, Scan.step_of_settle (Scan.endsWord_of_mark? hc) hsettle,
      Scan.begin_of_mark? hc, List.append_nil]
    rfl
  rw [scan?, List.foldlM_append, hclosed] at hscan
  obtain ⟨next, hnext, hfinish⟩ := Option.bind_eq_some_iff.1 hscan
  obtain ⟨token, more, htokens⟩ := (Scan.beyond_of_foldlM hnext h).finish hfinish
  exact ⟨token, more, by simpa using htokens⟩

end Token

/-- Tokens behind those of a document are too many. -/
theorem Document.ofTokens?_tokens_append (d : Document) (token : Token) (more : List Token) :
    Document.ofTokens? (d.tokens ++ token :: more) = none := by
  rw [ofTokens?, List.foldlM_append, foldlM_tokens]
  rfl

/-- The text of an object is complete: with anything but blanks behind it, it is no document. -/
theorem read?_object_append (members : List (String × Json)) {rest : List Char}
    (h : ∃ c ∈ rest, Token.isBlank c = false) :
    read? ((Json.object members).text ++ rest) = none := by
  have hinner : Token.Reads ('\x7b' :: membersText members)
      (.openObject :: Document.membersTokens (memberDocuments members)) :=
    .cons_mark rfl (reads_membersText members)
  have hdocument : Document.read? ((Json.object members).text ++ rest) = none := by
    rw [Document.read?, Option.bind_eq_none_iff]
    intro tokens hscan
    obtain ⟨token, more, rfl⟩ := hinner.scan?_append rfl h hscan
    exact Document.ofTokens?_tokens_append (Json.object members).document token more
  rw [read?, hdocument, Option.bind_none]

end Json

end LooseRecords
