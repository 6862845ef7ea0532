import LooseRecords.Proofs.Text.Blank
import Mathlib.Data.List.Induction

/-!
# Lines of a text

The lines that hold something. Blanks around them do not count, nor do those around the text as a
whole: `Text.lines_trim`.
-/

namespace LooseRecords

namespace Text

/-- The lines of a text without the blanks around them. -/
def trimmedLines (text : List Char) : List (List Char) := (text.splitOn '\n').map trim

/-- The lines of a text that are not blank, without the blanks around them. -/
def lines (text : List Char) : List (List Char) :=
  ((text.splitOn '\n').map trim).filter fun line => !line.isEmpty

theorem lines_eq (text : List Char) :
    lines text = (trimmedLines text).filter fun line => !line.isEmpty := rfl

theorem trimmedLines_of_not_mem {text : List Char} (h : '\n' ∉ text) :
    trimmedLines text = [trim text] := by
  rw [trimmedLines, List.splitOn_eq_singleton h, List.map_singleton]

theorem lines_of_not_mem {text : List Char} (h : '\n' ∉ text) :
    lines text = [trim text].filter fun line => !line.isEmpty := by
  rw [lines_eq, trimmedLines_of_not_mem h]

/-- A line feed separates the lines of two texts. -/
theorem trimmedLines_append_cons (text rest : List Char) :
    trimmedLines (text ++ '\n' :: rest) = trimmedLines text ++ trimmedLines rest := by
  rw [trimmedLines, List.splitOn_append_cons_self, List.map_append]
  rfl

theorem lines_append_cons (text rest : List Char) :
    lines (text ++ '\n' :: rest) = lines text ++ lines rest := by
  rw [lines_eq, trimmedLines_append_cons, List.filter_append]
  rfl

/-! ## Blanks in front of a text and behind it -/

/-- A blank in front of a text is a line of its own or stands on the first line. -/
theorem trimmedLines_cons_blank {c : Char} (h : isBlank c = true) (text : List Char) :
    trimmedLines (c :: text) = if c = '\n' then [] :: trimmedLines text else trimmedLines text := by
  split
  case isTrue hfeed =>
    subst hfeed
    exact trimmedLines_append_cons [] text
  case isFalse hfeed =>
    have htrim : ∀ line, trim (c :: line) = trim line :=
      trim_blanks_append (List.forall_mem_singleton.2 h)
    obtain ⟨line, others, hsplit⟩ := List.exists_cons_of_ne_nil (List.splitOn_ne_nil '\n' text)
    rw [trimmedLines, List.splitOn_cons_eq_if_modifyHead, if_neg (by simpa using hfeed),
      trimmedLines, hsplit]
    simp [htrim]

/-- A blank behind a text is a line of its own or stands on the last line. -/
theorem trimmedLines_append_blank (text : List Char) {c : Char} (h : isBlank c = true) :
    trimmedLines (text ++ [c]) =
      if c = '\n' then trimmedLines text ++ [[]] else trimmedLines text := by
  split
  case isTrue hfeed =>
    subst hfeed
    exact trimmedLines_append_cons text []
  case isFalse hfeed =>
    by_cases hmem : '\n' ∈ text
    · -- The blank stands behind every line feed, so what is in front of one does not matter.
      obtain ⟨front, rest, rfl⟩ := List.append_of_mem hmem
      have hshorter : rest.length < (front ++ '\n' :: rest).length := by
        simp only [List.length_append, List.length_cons]
        omega
      have hrest := trimmedLines_append_blank rest h
      rw [if_neg hfeed] at hrest
      rw [List.append_assoc, List.cons_append, trimmedLines_append_cons, trimmedLines_append_cons,
        hrest]
    · have hnot : '\n' ∉ text ++ [c] := by simp [hmem, Ne.symm hfeed]
      rw [trimmedLines_of_not_mem hnot, trimmedLines_of_not_mem hmem,
        trim_append_blanks text (List.forall_mem_singleton.2 h)]
  termination_by text.length

/-- Without the blanks in front of it a text has the same lines, but for some blank ones. -/
theorem trimmedLines_dropWhile (text : List Char) :
    ∃ n, trimmedLines text = List.replicate n [] ++ trimmedLines (text.dropWhile isBlank) := by
  induction text with
  | nil => exact ⟨0, rfl⟩
  | cons c text ih =>
    rw [List.dropWhile_cons]
    split
    case isTrue hc =>
      obtain ⟨n, hn⟩ := ih
      rw [trimmedLines_cons_blank hc, hn]
      split
      · exact ⟨n + 1, rfl⟩
      · exact ⟨n, rfl⟩
    case isFalse => exact ⟨0, rfl⟩

/-- Without the blanks behind it a text has the same lines, but for some blank ones. -/
theorem trimmedLines_trimEnd (text : List Char) :
    ∃ n, trimmedLines text = trimmedLines (trimEnd text) ++ List.replicate n [] := by
  induction text using List.reverseRecOn with
  | nil => exact ⟨0, rfl⟩
  | append_singleton text c ih =>
    cases hc : isBlank c with
    | true =>
      obtain ⟨n, hn⟩ := ih
      rw [trimEnd_append_blanks text (List.forall_mem_singleton.2 hc),
        trimmedLines_append_blank text hc, hn]
      split
      · exact ⟨n + 1, by rw [List.append_assoc, ← List.replicate_succ']⟩
      · exact ⟨n, rfl⟩
    | false =>
      have hstop : trimEnd (text ++ [c]) = text ++ [c] := trimEnd_append_cons text hc []
      exact ⟨0, by rw [hstop, List.replicate_zero, List.append_nil]⟩

/-- A text has the lines of the trimmed text, with blank lines in front of them and behind them. -/
theorem trimmedLines_trim (text : List Char) :
    ∃ before behind, trimmedLines text =
      List.replicate before [] ++ (trimmedLines (trim text) ++ List.replicate behind []) := by
  obtain ⟨before, hbefore⟩ := trimmedLines_dropWhile text
  obtain ⟨behind, hbehind⟩ := trimmedLines_trimEnd (text.dropWhile isBlank)
  exact ⟨before, behind, by rw [hbefore, hbehind, trim]⟩

/-- Blanks around a text are on none of its lines. -/
theorem lines_trim (text : List Char) : lines (trim text) = lines text := by
  have hblank : ∀ n, (List.replicate n ([] : List Char)).filter (fun line => !line.isEmpty) = [] :=
    fun n => List.filter_replicate_of_neg (by simp)
  obtain ⟨before, behind, htext⟩ := trimmedLines_trim text
  rw [lines_eq, lines_eq, htext, List.filter_append, List.filter_append, hblank, hblank,
    List.nil_append, List.append_nil]

theorem lines_of_blank {blanks : List Char} (h : Blank blanks) : lines blanks = [] := by
  rw [← lines_trim, trim_of_blank h]
  rfl

/-- A text that does not begin with a blank has something on its first line. -/
theorem trimmedLines_cons {c : Char} (h : isBlank c = false) (text : List Char) :
    ∃ line others, trimmedLines (c :: text) = line :: others ∧ line ≠ [] := by
  have hfeed : ¬ c = '\n' := by
    rintro rfl
    exact absurd h (by decide)
  obtain ⟨line, others, hsplit⟩ := List.exists_cons_of_ne_nil (List.splitOn_ne_nil '\n' text)
  refine ⟨trim (c :: line), others.map trim, ?_, ?_⟩
  · rw [trimmedLines, List.splitOn_cons_eq_if_modifyHead, if_neg (by simpa using hfeed), hsplit]
    rfl
  · have htrim : trim (c :: line) = c :: trimEnd line := by
      rw [trim, dropWhile_isBlank (by simpa using h)]
      exact trimEnd_append_cons [] h line
    rw [htrim]
    exact List.cons_ne_nil _ _

/-- The number of blank lines that a text begins with. -/
def blankLinesInFront (text : List Char) : Nat :=
  ((trimmedLines text).takeWhile List.isEmpty).length

/-- The blank lines that a text begins with are those that trimming it takes away. -/
theorem trimmedLines_blankLinesInFront {text : List Char} (h : trim text ≠ []) :
    ∃ behind, trimmedLines text = List.replicate (blankLinesInFront text) [] ++
      (trimmedLines (trim text) ++ List.replicate behind []) := by
  obtain ⟨before, behind, htext⟩ := trimmedLines_trim text
  obtain ⟨c, rest, hcons⟩ := List.exists_cons_of_ne_nil h
  have hc : isBlank c = false := isBlank_head?_trim text c (by rw [hcons]; rfl)
  obtain ⟨line, others, hlines, hline⟩ := trimmedLines_cons hc rest
  rw [hcons, hlines] at htext
  have hfront : blankLinesInFront text = before := by
    have hblank : ∀ line ∈ List.replicate before ([] : List Char), line.isEmpty = true := by
      simp
    rw [blankLinesInFront, htext, List.takeWhile_append_of_pos hblank]
    simp [hline]
  rw [hcons, hlines, hfront]
  exact ⟨behind, htext⟩

end Text

end LooseRecords
