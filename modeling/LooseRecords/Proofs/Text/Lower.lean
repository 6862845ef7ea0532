import LooseRecords.Text.Search
import Mathlib.Data.List.Basic

/-!
# Lower-case forms of parts of a text

The lower-case form of a text is put together from those of its parts, but a part may have another
lower-case form within the text than it has alone: a capital sigma that ends a word in one of the
two need not end one in the other. `Text.lowerBetween_eq_lower_iff` says that this is the only
difference.
-/

namespace LooseRecords

namespace Text

/-! ## The end of a word -/

/-- The last character that is not passed over is cased. -/
def casedLast (text : List Char) : Bool := casedFirst text.reverse

/-- A capital sigma between two texts ends a word. -/
def isFinal (front behind : List Char) : Bool := casedLast front && !casedFirst behind

theorem casedFirst_cons (c : Char) (rest : List Char) :
    casedFirst (c :: rest) = if isIgnorable c then casedFirst rest else isCased c := by
  cases hc : isIgnorable c with
  | true => simp [casedFirst, hc]
  | false => simp [casedFirst, hc]

theorem casedLast_concat (front : List Char) (c : Char) :
    casedLast (front ++ [c]) = if isIgnorable c then casedLast front else isCased c := by
  rw [casedLast, List.reverse_append]
  exact casedFirst_cons c front.reverse

/-! ## Parts of a text -/

/-- The lower-case form of a character at a place where a capital sigma ends a word or does not. -/
def lowerAt (final : Bool) (c : Char) : List Char :=
  if c = 'Σ' then [if final then 'ς' else 'σ'] else lowerChar c

theorem lowerAt_eq_iff (final other : Bool) (c : Char) :
    lowerAt final c = lowerAt other c ↔ (c = 'Σ' → final = other) := by
  rw [lowerAt, lowerAt]
  split
  case isTrue hc => cases final <;> cases other <;> simp [hc]
  case isFalse hc => simp [hc]

theorem length_lowerAt (final other : Bool) (c : Char) :
    (lowerAt final c).length = (lowerAt other c).length := by
  rw [lowerAt, lowerAt]
  split
  · rfl
  · rfl

/-- The lower-case form that a text has between two others. -/
def lowerBetween (front : List Char) : List Char → List Char → List Char
  | [], _ => []
  | c :: rest, behind =>
    lowerAt (isFinal front (rest ++ behind)) c ++ lowerBetween (front ++ [c]) rest behind

theorem lowerAfter_casedLast (front text : List Char) :
    lowerAfter (casedLast front) text = lowerBetween front text [] := by
  induction text generalizing front with
  | nil => rfl
  | cons c rest ih =>
    rw [lowerAfter, ← casedLast_concat, ih, lowerBetween, List.append_nil, isFinal, lowerAt]

theorem lower_eq_lowerBetween (text : List Char) : lower text = lowerBetween [] text [] :=
  lowerAfter_casedLast [] text

theorem lowerBetween_append (front first second behind : List Char) :
    lowerBetween front (first ++ second) behind =
      lowerBetween front first (second ++ behind) ++
        lowerBetween (front ++ first) second behind := by
  induction first generalizing front with
  | nil => rw [List.nil_append, lowerBetween, List.nil_append, List.append_nil]
  | cons c rest ih =>
    rw [List.cons_append, lowerBetween, lowerBetween, ih, List.append_assoc, List.append_assoc,
      List.append_assoc, List.singleton_append]

/-- The lower-case form of a text, at one of its parts. -/
theorem lower_append (front text behind : List Char) :
    lower (front ++ (text ++ behind)) =
      lowerBetween [] front (text ++ behind) ++
        (lowerBetween front text behind ++ lowerBetween (front ++ text) behind []) := by
  rw [lower_eq_lowerBetween, lowerBetween_append, lowerBetween_append, List.append_nil,
    List.append_nil, List.nil_append]

/-- What stands around a text has no part in the length of its lower-case form. -/
theorem length_lowerBetween (front other text behind beyond : List Char) :
    (lowerBetween front text behind).length = (lowerBetween other text beyond).length := by
  induction text generalizing front other with
  | nil => rfl
  | cons c rest ih =>
    rw [lowerBetween, lowerBetween, List.length_append, List.length_append,
      ih (front ++ [c]) (other ++ [c]), length_lowerAt]

/-! ## Capital sigmas -/

/-- Some capital sigma of a text ends a word either in the text or where the text stands between
two others, but not in both. -/
def TurnsSigma (front text behind : List Char) : Prop :=
  ∃ before after, text = before ++ 'Σ' :: after ∧
    isFinal (front ++ before) (after ++ behind) ≠ isFinal before after

theorem not_turnsSigma_of_not_mem {text : List Char} (h : 'Σ' ∉ text) (front behind : List Char) :
    ¬ TurnsSigma front text behind := by
  rintro ⟨before, after, rfl, -⟩
  exact h (by simp)

/-- A text has the same lower-case form in two places exactly if each of its capital sigmas ends a
word in both or in neither. -/
theorem lowerBetween_eq_iff (front other text behind beyond : List Char) :
    lowerBetween front text behind = lowerBetween other text beyond ↔
      ∀ before after, text = before ++ 'Σ' :: after →
        isFinal (front ++ before) (after ++ behind) =
          isFinal (other ++ before) (after ++ beyond) := by
  induction text generalizing front other with
  | nil => simp [lowerBetween]
  | cons c rest ih =>
    -- The character has as many characters in either place, so the two sides agree part by part.
    have hparts : lowerBetween front (c :: rest) behind = lowerBetween other (c :: rest) beyond ↔
        lowerAt (isFinal front (rest ++ behind)) c = lowerAt (isFinal other (rest ++ beyond)) c ∧
          lowerBetween (front ++ [c]) rest behind = lowerBetween (other ++ [c]) rest beyond := by
      rw [lowerBetween, lowerBetween]
      constructor
      · exact fun h => List.append_inj h (length_lowerAt _ _ c)
      · rintro ⟨hc, hrest⟩
        rw [hc, hrest]
    rw [hparts, lowerAt_eq_iff, ih]
    constructor
    · rintro ⟨hc, hrest⟩ before after hsplit
      cases before with
      | nil =>
        obtain ⟨rfl, rfl⟩ : c = 'Σ' ∧ rest = after := by simpa using hsplit
        simpa using hc rfl
      | cons d before =>
        obtain ⟨rfl, rfl⟩ : c = d ∧ rest = before ++ 'Σ' :: after := by simpa using hsplit
        simpa using hrest before after rfl
    · intro h
      constructor
      · rintro rfl
        simpa using h [] rest rfl
      · rintro before after rfl
        simpa using h (c :: before) after rfl

theorem lowerBetween_eq_lower_iff (front text behind : List Char) :
    lowerBetween front text behind = lower text ↔ ¬ TurnsSigma front text behind := by
  rw [lower_eq_lowerBetween, lowerBetween_eq_iff, TurnsSigma]
  simp only [List.nil_append, List.append_nil, not_exists, not_and, not_not, ne_eq]

/-! ## Texts within texts -/

theorem occursIn_iff (needle hay : List Char) : occursIn needle hay = true ↔ needle <:+: hay := by
  induction hay with
  | nil => simp [occursIn]
  | cons c rest ih =>
    rw [occursIn, Bool.or_eq_true, ih, List.isPrefixOf_iff_prefix, List.infix_cons_iff]

/-- In lower case a text still begins with its beginning, unless a capital sigma turns. -/
theorem isPrefixOf_lower (text behind : List Char) :
    (lower text).isPrefixOf (lower (text ++ behind)) = true ↔ ¬ TurnsSigma [] text behind := by
  have hlower : lower (text ++ behind) =
      lowerBetween [] text behind ++ lowerBetween text behind [] := lower_append [] text behind
  have hlength : (lower text).length = (lowerBetween [] text behind).length := by
    rw [lower_eq_lowerBetween]
    exact length_lowerBetween [] [] text [] behind
  rw [List.isPrefixOf_iff_prefix, hlower, ← lowerBetween_eq_lower_iff]
  constructor
  · intro h
    have hstart := List.prefix_of_prefix_length_le h (List.prefix_append _ _) (Nat.le_of_eq hlength)
    exact (hstart.eq_of_length hlength).symm
  · intro h
    rw [h]
    exact List.prefix_append _ _

/-- In lower case a text still ends with its end, unless a capital sigma turns. -/
theorem isSuffixOf_lower (front text : List Char) :
    (lower text).isSuffixOf (lower (front ++ text)) = true ↔ ¬ TurnsSigma front text [] := by
  have hlower : lower (front ++ text) = lowerBetween [] front text ++ lowerBetween front text [] := by
    simpa [lowerBetween] using lower_append front text []
  have hlength : (lower text).length = (lowerBetween front text []).length := by
    rw [lower_eq_lowerBetween]
    exact length_lowerBetween [] front text [] []
  rw [List.isSuffixOf_iff_suffix, hlower, ← lowerBetween_eq_lower_iff]
  constructor
  · intro h
    have hend := List.suffix_of_suffix_length_le h (List.suffix_append _ _) (Nat.le_of_eq hlength)
    exact (hend.eq_of_length hlength).symm
  · intro h
    rw [h]
    exact List.suffix_append _ _

/-- In lower case a text still contains each of its parts in which no capital sigma turns. -/
theorem occursIn_lower {front text behind : List Char} (h : ¬ TurnsSigma front text behind) :
    occursIn (lower text) (lower (front ++ (text ++ behind))) = true := by
  rw [occursIn_iff, lower_append, (lowerBetween_eq_lower_iff front text behind).2 h,
    ← List.append_assoc]
  exact List.infix_append _ _ _

end Text

end LooseRecords
