import LooseRecords.Proofs.Json.Blank
import LooseRecords.Proofs.Text.Lines
import Mathlib.Data.List.Forall2

/-!
# JSON on lines

No token goes on beyond the end of a line, so the tokens of a text are those of its lines:
`Json.Token.scan?_lines`. Hence a text is never both one document and several documents on lines of
their own: `Json.Document.lines_eq_singleton`.
-/

namespace LooseRecords

namespace Json

namespace Token

namespace Scan

/-- The scan with tokens in front of those that it found. -/
def behind (found : List Token) (scan : Scan) : Scan := ⟨scan.mode, scan.tokens ++ found⟩

theorem begin_behind (tokens found : List Token) (c : Char) :
    begin (tokens ++ found) c = (begin tokens c).behind found := by
  unfold begin
  split
  · rfl
  · split
    · rfl
    · cases mark? c <;> rfl

/-- The tokens in front have no part in what comes next. -/
theorem step_behind (scan : Scan) (found : List Token) (c : Char) :
    (scan.behind found).step c = (scan.step c).map (behind found) := by
  obtain ⟨mode, tokens⟩ := scan
  cases mode with
  | between => exact congrArg some (begin_behind tokens found c)
  | word read =>
    simp only [step, behind]
    split
    · rw [Option.map_map]
      exact congrArg (Option.map · _) (funext fun token => begin_behind (token :: tokens) found c)
    · rfl
  | string pieces =>
    simp only [step, behind]
    split
    · rfl
    · split
      · rfl
      · split <;> rfl
  | escape pieces =>
    simp only [step, behind]
    split
    · rfl
    · rw [Option.map_map]
      rfl
  | code pieces digits value =>
    simp only [step, behind, Option.map_map]
    congr 1
    funext d
    show (if digits = 3 then _ else _) = behind found (if digits = 3 then _ else _)
    split <;> rfl

theorem finish_behind (scan : Scan) (found : List Token) :
    (scan.behind found).finish = scan.finish.map (found.reverse ++ ·) := by
  obtain ⟨mode, tokens⟩ := scan
  cases mode with
  | between => simp [finish, behind]
  | word read => simp [finish, behind, Function.comp_def]
  | string | escape | code => rfl

theorem run_behind (scan : Scan) (found : List Token) (text : List Char) :
    (scan.behind found).run text = (scan.run text).map (found.reverse ++ ·) := by
  induction text generalizing scan with
  | nil => exact finish_behind scan found
  | cons c text ih =>
    rw [run_cons, run_cons, step_behind]
    cases scan.step c with
    | none => rfl
    | some next => exact ih next

/-- A line feed ends a token that is under way, and no string has one. -/
theorem step_feed {scan next : Scan} (h : scan.step '\n' = some next) :
    ∃ tokens, scan.finish = some tokens ∧ next = ⟨.between, tokens.reverse⟩ := by
  obtain ⟨mode, tokens⟩ := scan
  cases mode with
  | between =>
    cases h
    exact ⟨tokens.reverse, rfl, by rw [List.reverse_reverse]; rfl⟩
  | word read =>
    obtain ⟨token, hword, rfl⟩ := Option.map_eq_some_iff.1 h
    exact ⟨(token :: tokens).reverse, by simp [finish, hword], by rw [List.reverse_reverse]; rfl⟩
  | string | escape | code => cases h

end Scan

/-- A line feed separates the tokens of two texts. -/
theorem scan?_append_feed {text rest : List Char} {tokens : List Token}
    (h : scan? (text ++ '\n' :: rest) = some tokens) :
    ∃ first others, scan? text = some first ∧ scan? rest = some others ∧
      tokens = first ++ others := by
  have hrun : Scan.run ⟨.between, []⟩ (text ++ '\n' :: rest) = some tokens := h
  rw [Scan.run_append] at hrun
  obtain ⟨scan, hscan, hrest⟩ := Option.bind_eq_some_iff.1 hrun
  rw [Scan.run_cons] at hrest
  obtain ⟨next, hstep, hnext⟩ := Option.bind_eq_some_iff.1 hrest
  obtain ⟨first, hfirst, rfl⟩ := Scan.step_feed hstep
  have hbehind := Scan.run_behind ⟨.between, []⟩ first.reverse rest
  rw [List.reverse_reverse] at hbehind
  obtain ⟨others, hothers, htokens⟩ := Option.map_eq_some_iff.1 (hbehind.symm.trans hnext)
  refine ⟨first, others, ?_, hothers, htokens.symm⟩
  rw [scan?, hscan, Option.bind_some, hfirst]

/-- The tokens of a text are those of its lines. -/
theorem scan?_lines (text : List Char) {tokens : List Token} (h : scan? text = some tokens) :
    ∃ parts, List.Forall₂ (fun line part => scan? line = some part) (Text.lines text) parts ∧
      tokens = parts.flatten := by
  by_cases hmem : '\n' ∈ text
  · obtain ⟨front, rest, rfl⟩ := List.append_of_mem hmem
    obtain ⟨first, others, hfirst, hothers, rfl⟩ := scan?_append_feed h
    have hshorter : front.length < (front ++ '\n' :: rest).length ∧
        rest.length < (front ++ '\n' :: rest).length := by
      simp only [List.length_append, List.length_cons]
      omega
    obtain ⟨parts, hparts, rfl⟩ := scan?_lines front hfirst
    obtain ⟨more, hmore, rfl⟩ := scan?_lines rest hothers
    refine ⟨parts ++ more, ?_, List.flatten_append.symm⟩
    rw [Text.lines_append_cons]
    exact List.rel_append hparts hmore
  · have htrim : scan? (Text.trim text) = some tokens := scan?_trim h
    rw [Text.lines_of_not_mem hmem]
    cases hempty : (Text.trim text).isEmpty with
    | true =>
      rw [List.isEmpty_iff.1 hempty] at htrim ⊢
      exact ⟨[], .nil, (Option.some.inj htrim).symm⟩
    | false =>
      refine ⟨[tokens], ?_, by simp⟩
      simpa [hempty] using htrim
  termination_by text.length

end Token

namespace Document

/-- Behind the last token of a document there is no other one. -/
theorem ofTokens?_append {tokens more : List Token} {d e : Document}
    (h : ofTokens? tokens = some d) (hmore : ofTokens? (tokens ++ more) = some e) : more = [] := by
  obtain ⟨state, hstate, hdocument⟩ := Option.bind_eq_some_iff.1 h
  rw [ofTokens?, List.foldlM_append, hstate] at hmore
  cases more with
  | nil => rfl
  | cons token more =>
    cases state with
    | done => cases hmore
    | value | firstItem | firstName | nextName | colon | afterItem | afterMember => cases hdocument

/-- A document whose lines are documents stands on a single line. -/
theorem lines_eq_singleton {text : List Char} {d : Document} (h : read? text = some d)
    (hlines : ∀ line ∈ Text.lines text, (read? line).isSome = true) :
    ∃ line, Text.lines text = [line] ∧ read? line = some d := by
  obtain ⟨tokens, hscan, htokens⟩ := Option.bind_eq_some_iff.1 h
  obtain ⟨parts, hparts, rfl⟩ := Token.scan?_lines text hscan
  -- Each line is a document by itself, so its tokens make up one.
  have hpart : ∀ line ∈ Text.lines text, ∀ part, Token.scan? line = some part →
      ∃ e, ofTokens? part = some e := by
    intro line hline part hpart
    obtain ⟨e, he⟩ := Option.isSome_iff_exists.1 (hlines line hline)
    rw [read?, hpart] at he
    exact ⟨e, he⟩
  generalize Text.lines text = lines at hparts hpart ⊢
  cases hparts with
  | nil => cases htokens
  | @cons line part others rest hline hrest =>
    obtain ⟨e, he⟩ := hpart line List.mem_cons_self part hline
    have hnil : rest.flatten = [] := ofTokens?_append he htokens
    cases hrest with
    | nil =>
      refine ⟨line, rfl, ?_⟩
      rw [read?, hline]
      simpa using htokens
    | @cons next second _ _ hnext _ =>
      obtain ⟨e, he⟩ := hpart next (by simp) second hnext
      have hsecond : second = [] := (List.append_eq_nil_iff.1 hnil).1
      subst hsecond
      cases he

end Document

end Json

end LooseRecords
