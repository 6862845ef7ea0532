import LooseRecords.Text.Blank

/-!
# Blanks at the ends of a text

When `Text.trim` leaves a text as it is, and that blanks around a text do not count.
-/

namespace LooseRecords

namespace Text

theorem dropWhile_isBlank {text : List Char} (h : ∀ c ∈ text.head?, isBlank c = false) :
    text.dropWhile isBlank = text := by
  cases text with
  | nil => rfl
  | cons c rest => exact List.dropWhile_cons_of_neg (by simp [h c rfl])

/-- A text that neither begins nor ends with a blank is trimmed already. -/
theorem trim_eq_self {text : List Char} (hfirst : ∀ c ∈ text.head?, isBlank c = false)
    (hlast : ∀ c ∈ text.getLast?, isBlank c = false) : trim text = text := by
  have hreverse : ∀ c ∈ text.reverse.head?, isBlank c = false := by simpa using hlast
  rw [trim, dropWhile_isBlank hfirst, trimEnd, dropWhile_isBlank hreverse, List.reverse_reverse]

theorem trim_of_ends {first last : Char} (hfirst : isBlank first = false)
    (hlast : isBlank last = false) (middle : List Char) :
    trim (first :: (middle ++ [last])) = first :: (middle ++ [last]) :=
  trim_eq_self (by simpa using hfirst) (by simpa [List.getLast?_cons] using hlast)

theorem trim_of_no_blank {text : List Char} (h : ∀ c ∈ text, isBlank c = false) :
    trim text = text :=
  trim_eq_self (fun c hc => h c (List.mem_of_head? hc)) fun c hc => h c (List.mem_of_getLast? hc)

/-- No character of a numeral is a blank. -/
theorem isBlank_of_numeral {c : Char} (h : c.isDigit = true ∨ c ∈ ['+', '-', '.', 'e', 'E']) :
    isBlank c = false := by
  rcases h with hdigit | hmem
  · have hrange : 48 ≤ c.toNat ∧ c.toNat ≤ 57 := Char.isDigit_iff_toNat.1 hdigit
    rw [Bool.eq_false_iff]
    intro hblank
    simp only [isBlank, Bool.or_eq_true, Bool.and_eq_true, decide_eq_true_eq, beq_iff_eq]
      at hblank
    omega
  · simp only [List.mem_cons, List.not_mem_nil, or_false] at hmem
    rcases hmem with rfl | rfl | rfl | rfl | rfl <;> decide

/-! ## Blanks around a text -/

/-- The text holds nothing but blanks. -/
def Blank (text : List Char) : Prop := ∀ c ∈ text, isBlank c = true

instance : DecidablePred Blank := fun text =>
  List.decidableBAll (fun c => isBlank c = true) text

theorem trimEnd_append_blanks (text : List Char) {blanks : List Char} (h : Blank blanks) :
    trimEnd (text ++ blanks) = trimEnd text := by
  have hreverse : ∀ c ∈ blanks.reverse, isBlank c = true := fun c hc => h c (List.mem_reverse.1 hc)
  rw [trimEnd, List.reverse_append, List.dropWhile_append_of_pos hreverse, trimEnd]

theorem trim_blanks_append {blanks : List Char} (h : Blank blanks) (text : List Char) :
    trim (blanks ++ text) = trim text := by
  rw [trim, List.dropWhile_append_of_pos h, trim]

theorem dropWhile_blanks {blanks : List Char} (h : Blank blanks) :
    blanks.dropWhile isBlank = [] := by
  have happend : (blanks ++ []).dropWhile isBlank = [] := List.dropWhile_append_of_pos h
  rwa [List.append_nil] at happend

theorem trim_append_blanks (text : List Char) {blanks : List Char} (h : Blank blanks) :
    trim (text ++ blanks) = trim text := by
  rw [trim, List.dropWhile_append, trim]
  split
  case isTrue hempty => rw [dropWhile_blanks h, List.isEmpty_iff.1 hempty]
  case isFalse => exact trimEnd_append_blanks _ h

theorem trim_of_blank {blanks : List Char} (h : Blank blanks) : trim blanks = [] := by
  rw [trim, dropWhile_blanks h]
  rfl

/-- From the end of a text nothing is cut beyond the last character that is not a blank. -/
theorem trimEnd_append_cons (front : List Char) {c : Char} (h : isBlank c = false)
    (rest : List Char) : trimEnd (front ++ c :: rest) = front ++ c :: trimEnd rest := by
  have hstop : (c :: front.reverse).dropWhile isBlank = c :: front.reverse :=
    List.dropWhile_cons_of_neg (by simp [h])
  have hreverse : (front ++ c :: rest).reverse = rest.reverse ++ c :: front.reverse := by simp
  rw [trimEnd, hreverse, List.dropWhile_append, trimEnd]
  split
  case isTrue hempty => simp [hstop, List.isEmpty_iff.1 hempty]
  case isFalse => simp

/-! ## Trimmed texts -/

theorem isBlank_head?_dropWhile (text : List Char) :
    ∀ c ∈ (text.dropWhile isBlank).head?, isBlank c = false := by
  intro c hc
  have hstop := List.head?_dropWhile_not isBlank text
  rw [Option.mem_def.1 hc] at hstop
  exact hstop

theorem trimEnd_prefix (text : List Char) : trimEnd text <+: text := by
  rw [trimEnd, ← List.reverse_suffix, List.reverse_reverse]
  exact List.dropWhile_suffix isBlank

/-- A trimmed text begins with no blank: what is left of its front begins as the front does. -/
theorem isBlank_head?_trim (text : List Char) : ∀ c ∈ (trim text).head?, isBlank c = false := by
  intro c hc
  obtain ⟨rest, hrest⟩ := List.head?_eq_some_iff.1 hc
  obtain ⟨blanks, hblanks⟩ := trimEnd_prefix (text.dropWhile isBlank)
  refine isBlank_head?_dropWhile text c ?_
  rw [← hblanks, ← trim, hrest]
  rfl

/-- A trimmed text is trimmed already. -/
theorem trim_trim (text : List Char) : trim (trim text) = trim text := by
  refine trim_eq_self (isBlank_head?_trim text) fun c hc => ?_
  refine isBlank_head?_dropWhile (text.dropWhile isBlank).reverse c ?_
  rwa [trim, trimEnd, List.getLast?_reverse] at hc

theorem length_trim_le (text : List Char) : (trim text).length ≤ text.length := by
  have hend : trim text <+: text.dropWhile isBlank := trimEnd_prefix _
  have hfront : text.dropWhile isBlank <:+ text := List.dropWhile_suffix isBlank
  exact Nat.le_trans hend.length_le hfront.length_le

/-- A trimmed text has no blanks around it. -/
theorem eq_nil_of_trim {front core behind : List Char} (hfront : Blank front)
    (hbehind : Blank behind) (h : trim (front ++ (core ++ behind)) = front ++ (core ++ behind)) :
    front = [] ∧ behind = [] := by
  have hcore : front ++ (core ++ behind) = trim core := by
    rw [← h, trim_blanks_append hfront, trim_append_blanks core hbehind]
  have hlength := congrArg List.length hcore
  have hle := length_trim_le core
  simp only [List.length_append] at hlength
  exact ⟨List.length_eq_zero_iff.1 (by omega), List.length_eq_zero_iff.1 (by omega)⟩

end Text

end LooseRecords
