import LooseRecords.Json.Document
import LooseRecords.Proofs.Json.Scan
import LooseRecords.Proofs.Text.Blank
import Mathlib.Data.List.Induction

/-!
# Blanks at the ends of JSON texts

More characters are cut off the ends of a text than JSON takes for blanks. A text that is a document
has none of those that JSON refuses, so it is the same document without them: `Json.read?_trim`.
-/

namespace LooseRecords

namespace Json

namespace Token

/-! ## Blanks in a scan -/

/-- No word that is a token has a blank in it. -/
theorem isBlank_of_word? {word : List Char} {token : Token} (h : word? word = some token)
    {c : Char} (hc : c ∈ word) : Text.isBlank c = false := by
  have hplain : ∀ text : List Char, text.any Text.isBlank = false → word = text →
      Text.isBlank c = false := by
    rintro _ htext rfl
    simpa using List.any_eq_false.1 htext c hc
  unfold word? at h
  split at h
  case isTrue hnull => exact hplain _ (by decide) hnull
  case isFalse =>
  split at h
  case isTrue htrue => exact hplain _ (by decide) htrue
  case isFalse =>
  split at h
  case isTrue hfalse => exact hplain _ (by decide) hfalse
  case isFalse =>
    obtain ⟨n, hnumeral, -⟩ := Option.map_eq_some_iff.1 h
    have hchars := (Option.filter_eq_some_iff.1 hnumeral).1
    exact Text.isBlank_of_numeral ((Numeral.spells_of_ofChars? hchars).part c hc)

theorem word?_of_blank {word : List Char} {c : Char} (hc : c ∈ word)
    (hblank : Text.isBlank c = true) : word? word = none := by
  rw [Option.eq_none_iff_forall_ne_some]
  intro token h
  rw [isBlank_of_word? h hc] at hblank
  cases hblank

namespace Scan

/-- The tokens that a scan has at the end of the text. -/
def run (scan : Scan) (text : List Char) : Option (List Token) :=
  (text.foldlM step scan).bind finish

theorem run_cons (scan : Scan) (c : Char) (text : List Char) :
    scan.run (c :: text) = (scan.step c).bind fun next => next.run text := by
  rw [run, List.foldlM_cons]
  cases scan.step c <;> rfl

/-- A word with a blank in it cannot be completed. -/
theorem run_blank_word {read : List Char} {c : Char} (hc : c ∈ read)
    (hblank : Text.isBlank c = true) (found : List Token) (text : List Char) :
    run ⟨.word read, found⟩ text = none := by
  have hword : word? read.reverse = none := word?_of_blank (List.mem_reverse.2 hc) hblank
  induction text generalizing read with
  | nil =>
    show finish ⟨.word read, found⟩ = none
    simp [finish, hword]
  | cons d text ih =>
    rw [run_cons, step]
    cases hd : endsWord d with
    | true => simp [hword]
    | false =>
      have hlonger : c ∈ d :: read := List.mem_cons_of_mem d hc
      simpa [hd] using ih hlonger (word?_of_blank (List.mem_reverse.2 hlonger) hblank)

/-- A blank ends a word or a number only if JSON takes it for a blank. -/
theorem endsWord_blank {c : Char} (h : Text.isBlank c = true) : endsWord c = Token.isBlank c := by
  have hother : ∀ d, Text.isBlank d = false → c ≠ d := by
    rintro _ hd rfl
    cases hd.symm.trans h
  have hquote : c ≠ '"' := hother _ (by decide)
  have hmark : mark? c = none := by
    simp [mark?, hother '[' (by decide), hother ']' (by decide), hother '\x7b' (by decide),
      hother '\x7d' (by decide), hother ':' (by decide), hother ',' (by decide)]
  simp [endsWord, hquote, hmark]

theorem begin_blank {c : Char} (h : Text.isBlank c = true) (found : List Token) :
    begin found c = if Token.isBlank c then ⟨.between, found⟩ else ⟨.word [c], found⟩ := by
  cases hc : Token.isBlank c with
  | true => simp [begin, hc]
  | false => simpa using begin_of_not_endsWord ((endsWord_blank h).trans hc) found

/-- A blank in front of a text has no part in its tokens. -/
theorem run_blank_cons {c : Char} (h : Text.isBlank c = true) {found tokens : List Token}
    {text : List Char} (hrun : run ⟨.between, found⟩ (c :: text) = some tokens) :
    run ⟨.between, found⟩ text = some tokens := by
  rw [run_cons] at hrun
  have hbegin : run (begin found c) text = some tokens := hrun
  rw [begin_blank h] at hbegin
  split at hbegin
  · exact hbegin
  · rw [run_blank_word (List.mem_singleton_self c) h] at hbegin
    cases hbegin

/-- A string is under way. -/
def inString (scan : Scan) : Bool :=
  match scan.mode with
  | .string _ | .escape _ | .code _ _ _ => true
  | .between | .word _ => false

theorem finish_of_inString {scan : Scan} (h : scan.inString = true) : scan.finish = none := by
  obtain ⟨mode, found⟩ := scan
  cases mode with
  | string | escape | code => rfl
  | between | word => cases h

/-- Only a quotation mark ends a string. -/
theorem inString_step {scan next : Scan} {c : Char} (h : scan.inString = true) (hc : c ≠ '"')
    (hstep : scan.step c = some next) : next.inString = true := by
  obtain ⟨mode, found⟩ := scan
  cases mode with
  | between | word => cases h
  | string pieces =>
    simp only [step, hc, if_false] at hstep
    split at hstep
    · cases hstep
      rfl
    · split at hstep <;> cases hstep
      rfl
  | escape pieces =>
    simp only [step] at hstep
    split at hstep
    · cases hstep
      rfl
    · obtain ⟨d, -, rfl⟩ := Option.map_eq_some_iff.1 hstep
      rfl
  | code pieces digits value =>
    obtain ⟨d, -, rfl⟩ := Option.map_eq_some_iff.1 hstep
    split <;> rfl

/-- A blank behind a text has no part in its tokens. -/
theorem finish_of_run_blank {scan : Scan} {c : Char} (h : Text.isBlank c = true)
    {tokens : List Token} (hrun : scan.run [c] = some tokens) : scan.finish = some tokens := by
  obtain ⟨mode, found⟩ := scan
  rw [run_cons] at hrun
  obtain ⟨next, hstep, hfinish⟩ := Option.bind_eq_some_iff.1 hrun
  have hbegin : ∀ found : List Token, (begin found c).finish = some tokens →
      tokens = found.reverse := by
    intro found hfinish
    have hnil : run ⟨.between, found⟩ [] = some tokens := run_blank_cons h hfinish
    exact (Option.some.inj hnil).symm
  have hquote : c ≠ '"' := by
    rintro rfl
    cases h
  cases mode with
  | between =>
    cases hstep
    rw [hbegin found hfinish]
    rfl
  | word read =>
    simp only [step] at hstep
    split at hstep
    · obtain ⟨token, hword, rfl⟩ := Option.map_eq_some_iff.1 hstep
      rw [hbegin _ hfinish]
      simp [finish, hword]
    · cases hstep
      have hmem : c ∈ c :: read := List.mem_cons_self
      cases (run_blank_word hmem h found []).symm.trans hfinish
  | string | escape | code =>
    have hinside : next.inString = true := inString_step rfl hquote hstep
    cases (finish_of_inString hinside).symm.trans hfinish

theorem run_append (scan : Scan) (a b : List Char) :
    scan.run (a ++ b) = (a.foldlM step scan).bind fun next => next.run b := by
  rw [run, List.foldlM_append]
  cases a.foldlM step scan <;> rfl

end Scan

/-! ## Documents without the blanks at their ends -/

theorem scan?_dropWhile {text : List Char} {tokens : List Token} (h : scan? text = some tokens) :
    scan? (text.dropWhile Text.isBlank) = some tokens := by
  induction text with
  | nil => exact h
  | cons c text ih =>
    cases hc : Text.isBlank c with
    | true =>
      rw [List.dropWhile_cons_of_pos hc]
      exact ih (Scan.run_blank_cons hc h)
    | false => rwa [List.dropWhile_cons_of_neg (by simp [hc])]

theorem scan?_trimEnd {text : List Char} {tokens : List Token} (h : scan? text = some tokens) :
    scan? (Text.trimEnd text) = some tokens := by
  induction text using List.reverseRecOn with
  | nil => exact h
  | append_singleton text c ih =>
    cases hc : Text.isBlank c with
    | true =>
      rw [Text.trimEnd_append_blanks text (List.forall_mem_singleton.2 hc)]
      refine ih ?_
      have hrun : Scan.run ⟨.between, []⟩ (text ++ [c]) = some tokens := h
      rw [Scan.run_append] at hrun
      obtain ⟨scan, hscan, hlast⟩ := Option.bind_eq_some_iff.1 hrun
      rw [scan?, hscan]
      exact Scan.finish_of_run_blank hc hlast
    | false =>
      rw [Text.trimEnd_append_cons text hc]
      exact h

/-- Without the blanks at its ends a text has the same tokens. -/
theorem scan?_trim {text : List Char} {tokens : List Token} (h : scan? text = some tokens) :
    scan? (Text.trim text) = some tokens :=
  scan?_trimEnd (scan?_dropWhile h)

end Token

/-- A text that is a document is the same document without the blanks at its ends. -/
theorem Document.read?_trim {text : List Char} {d : Document} (h : Document.read? text = some d) :
    Document.read? (Text.trim text) = some d := by
  obtain ⟨tokens, hscan, htokens⟩ := Option.bind_eq_some_iff.1 h
  rw [Document.read?, Token.scan?_trim hscan, Option.bind_some, htokens]

/-- A text that is a document stands for what it stands for without the blanks at its ends. -/
theorem read?_trim {text : List Char} {d : Document} (h : Document.read? text = some d) :
    read? (Text.trim text) = read? text := by
  rw [read?, read?, Document.read?_trim h, h]

end Json

end LooseRecords
