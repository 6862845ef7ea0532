import LooseRecords.Text.Collation
import Mathlib.Data.List.Basic

/-!
# Texts in order

Texts are compared by their lower-case characters and then by case, in either pass one character
after the other. Each pass is a consistent comparison, and so are the two put together:
`Text.collate_swap` and `Text.collate_trans`. The second pass tells different texts apart, so the
order is total, and where it takes effect it is decided at the first position at which the texts
differ: `Text.collate_total`.
-/

namespace LooseRecords

/-! ## One character after the other -/

section

variable {α : Type} {cmp : α → α → Ordering}

/-- Of texts whose fronts are equally long the fronts decide, and between equal ones the rest. -/
theorem compareLex_append {front other : List α} (h : front.length = other.length)
    (rest behind : List α) :
    (front ++ rest).compareLex cmp (other ++ behind) =
      (front.compareLex cmp other).then (rest.compareLex cmp behind) := by
  induction front generalizing other with
  | nil =>
    rw [List.eq_nil_of_length_eq_zero h.symm]
    rfl
  | cons a front ih =>
    cases other with
    | nil => cases h
    | cons b other =>
      rw [List.cons_append, List.cons_append, List.compareLex_cons_cons, List.compareLex_cons_cons,
        ih (Nat.succ.inj h), Ordering.then_assoc]

theorem compareLex_cons_self [Std.ReflCmp cmp] (a : α) (rest behind : List α) :
    (a :: rest).compareLex cmp (a :: behind) = rest.compareLex cmp behind := by
  have hself : cmp a a = .eq := Std.ReflCmp.compare_self
  rw [List.compareLex_cons_cons, hself]
  rfl

/-- Behind a common front the first characters decide if they differ. -/
theorem compareLex_append_cons [Std.LawfulEqCmp cmp] {a b : α} (h : a ≠ b)
    (front rest behind : List α) :
    (front ++ a :: rest).compareLex cmp (front ++ b :: behind) = cmp a b := by
  induction front with
  | nil =>
    rw [List.nil_append, List.nil_append, List.compareLex_cons_cons]
    cases hab : cmp a b with
    | lt => rfl
    | gt => rfl
    | eq => exact absurd (Std.LawfulEqCmp.eq_of_compare hab) h
  | cons c front ih => rw [List.cons_append, List.cons_append, compareLex_cons_self, ih]

/-- A comparison of characters makes the lexicographic order of the texts. -/
theorem compareLex_eq_lt_iff [Std.LawfulEqCmp cmp] {before : α → α → Prop}
    (h : ∀ a b, cmp a b = .lt ↔ before a b) (as bs : List α) :
    as.compareLex cmp bs = .lt ↔ List.Lex before as bs := by
  induction as generalizing bs with
  | nil =>
    cases bs with
    | nil => simp [List.compareLex_nil_nil]
    | cons b bs => simp [List.compareLex_nil_cons]
  | cons a as ih =>
    cases bs with
    | nil => simp [List.compareLex_cons_nil]
    | cons b bs =>
      rw [List.compareLex_cons_cons, Ordering.then_eq_lt, List.cons_lex_cons_iff, h, ih,
        Std.LawfulEqCmp.compare_eq_iff_eq]

end

namespace Text

/-- Characters are consistently ordered by case and code point. -/
instance : Std.TransCmp compareCased :=
  inferInstanceAs (Std.TransCmp (compareLex (compareOn fun c => (isUpper c).toNat) compare))

/-- Texts are consistently ordered. -/
instance : Std.TransCmp collate :=
  inferInstanceAs (Std.TransCmp (compareLex (compareOn caseless) (List.compareLex compareCased)))

/-- Texts that change places are ordered the other way. -/
theorem collate_swap (a b : List Char) : collate b a = (collate a b).swap :=
  Std.OrientedCmp.eq_swap

/-- Texts of which none comes after the next one do not come after each other. -/
theorem collate_trans {a b c : List Char} (hab : collate a b ≠ .gt) (hbc : collate b c ≠ .gt) :
    collate a c ≠ .gt :=
  Ordering.isLE_iff_ne_gt.1
    (Std.TransCmp.isLE_trans (Ordering.isLE_iff_ne_gt.2 hab) (Ordering.isLE_iff_ne_gt.2 hbc))

/-! ## Different texts -/

/-- Characters are told apart by their code points at the latest. -/
instance : Std.LawfulEqCmp compareCased where
  eq_of_compare h := Std.LawfulEqCmp.eq_of_compare (Ordering.then_eq_eq.1 h).2

/-- Texts are told apart by the second pass at the latest. -/
instance : Std.LawfulEqCmp collate where
  eq_of_compare h := Std.LawfulEqCmp.eq_of_compare (Ordering.then_eq_eq.1 h).2

/-- Characters are ordered by their code points. -/
theorem compare_toNat (x y : Char) : compare x.toNat y.toNat = compare x y := by
  have hchars : compare x y = if x < y then .lt else if x = y then .eq else .gt := rfl
  rw [hchars]
  split
  case isTrue hlt => exact Nat.compare_eq_lt.2 hlt
  case isFalse hge =>
    split
    case isTrue heq => rw [heq, Nat.compare_eq_eq]
    case isFalse hne =>
      have hle : y.toNat ≤ x.toNat := Nat.not_lt.1 hge
      have hdiff : x.toNat ≠ y.toNat := fun heq => hne (Char.toNat_inj.1 heq)
      rw [Nat.compare_eq_gt]
      omega

/-- A character that is not upper case comes in front of one that is; apart from that the code point
decides. -/
theorem compareCased_eq (x y : Char) :
    compareCased x y = if isUpper x = isUpper y then compare x.toNat y.toNat
      else if isUpper x then .gt else .lt := by
  rw [compareCased, compare_toNat]
  cases isUpper x <;> cases isUpper y <;> rfl

theorem caseless_append (front rest : List Char) :
    caseless (front ++ rest) = caseless front ++ caseless rest := List.flatMap_append

theorem caseless_cons (c : Char) (rest : List Char) :
    caseless (c :: rest) = lowerChar c ++ caseless rest := List.flatMap_cons

/-- No character is lost in lower case. -/
theorem lowerChar_ne_nil (c : Char) : lowerChar c ≠ [] := by
  simp only [lowerChar]
  split
  · simp
  · split
    · simp
    · split <;> simp

theorem caseless_eq_nil_iff (text : List Char) : caseless text = [] ↔ text = [] := by
  cases text with
  | nil => exact iff_of_true rfl rfl
  | cons c rest => simp [caseless_cons, lowerChar_ne_nil]

/-- Different texts with the same lower-case characters differ at a position that both have. A text
that only continues the other one has more lower-case characters. -/
theorem exists_first_difference {a b : List Char} (hsame : caseless a = caseless b) (h : a ≠ b) :
    ∃ front x y rest behind, a = front ++ x :: rest ∧ b = front ++ y :: behind ∧ x ≠ y := by
  -- Neither text can end first, for behind its end the other one has no lower-case characters.
  induction a generalizing b with
  | nil =>
    have hb : b = [] := (caseless_eq_nil_iff b).1 hsame.symm
    exact absurd hb.symm h
  | cons x a ih =>
    cases b with
    | nil =>
      have ha : x :: a = [] := (caseless_eq_nil_iff _).1 hsame
      cases ha
    | cons y b =>
      by_cases hxy : x = y
      · subst hxy
        rw [caseless_cons, caseless_cons, List.append_right_inj] at hsame
        obtain ⟨front, x', y', rest, behind, ha, hb, hne⟩ := ih hsame fun hab => h (by rw [hab])
        exact ⟨x :: front, x', y', rest, behind, by rw [ha]; rfl, by rw [hb]; rfl, hne⟩
      · exact ⟨[], x, y, a, b, rfl, rfl, hxy⟩

/-- Texts that differ in their lower-case characters are in the lexicographic order of these. -/
theorem collate_eq_lt_iff {a b : List Char} (h : caseless a ≠ caseless b) :
    collate a b = .lt ↔
      List.Lex (fun x y => x.toNat < y.toNat) (caseless a) (caseless b) := by
  have hpoint : ∀ x y : Char, compare x y = .lt ↔ x.toNat < y.toNat := by
    intro x y
    rw [← compare_toNat, Nat.compare_eq_lt]
  rw [collate, Ordering.then_eq_lt, compareLex_eq_lt_iff hpoint, or_iff_left]
  intro hsame
  exact h (Std.LawfulEqCmp.eq_of_compare hsame.1)

/-- Texts with the same lower-case characters are in the order of the first characters that
differ. -/
theorem collate_append_cons {x y : Char} (h : x ≠ y) {front rest behind : List Char}
    (hsame : caseless (front ++ x :: rest) = caseless (front ++ y :: behind)) :
    collate (front ++ x :: rest) (front ++ y :: behind) = compareCased x y := by
  have hfolded : (caseless (front ++ x :: rest)).compareLex compare
      (caseless (front ++ y :: behind)) = .eq := by
    rw [hsame]
    exact Std.ReflCmp.compare_self
  rw [collate, hfolded, compareLex_append_cons h]
  rfl

/-- The order of texts is total: only a text and itself are equal, texts that change places are
ordered the other way, and texts of which none comes after the next one do not come after each
other. Texts that differ in their lower-case characters are in the lexicographic order of the code
points of these. Other texts that differ do so at a position that both have, and the first such
position decides: a character that is not upper case comes in front of one that is, and between
characters that agree in this the code point decides. -/
theorem collate_total (a b c : List Char) :
    (collate a b = .eq ↔ a = b) ∧
      collate b a = (collate a b).swap ∧
      (collate a b ≠ .gt → collate b c ≠ .gt → collate a c ≠ .gt) ∧
      (caseless a ≠ caseless b →
        (collate a b = .lt ↔
          List.Lex (fun x y => x.toNat < y.toNat) (caseless a) (caseless b))) ∧
      (caseless a = caseless b → a ≠ b →
        ∃ front x y rest behind, a = front ++ x :: rest ∧ b = front ++ y :: behind ∧ x ≠ y ∧
          collate a b = if isUpper x = isUpper y then compare x.toNat y.toNat
            else if isUpper x then .gt else .lt) := by
  refine ⟨Std.LawfulEqCmp.compare_eq_iff_eq, collate_swap a b, collate_trans, collate_eq_lt_iff, ?_⟩
  intro hsame hne
  obtain ⟨front, x, y, rest, behind, rfl, rfl, hxy⟩ := exists_first_difference hsame hne
  refine ⟨front, x, y, rest, behind, rfl, rfl, hxy, ?_⟩
  rw [collate_append_cons hxy hsame, compareCased_eq]

/-- The capital dotted i is two characters in lower case. It comes behind these two, and in front of
the texts that continue it. -/
theorem collate_total_dotted :
    let small := "i\u0307".toList
    let dotted := "İ".toList
    let longer := "İa".toList
    caseless small = caseless dotted ∧ small ≠ dotted ∧ caseless dotted ≠ caseless longer ∧
      (∃ front x y rest behind, small = front ++ x :: rest ∧ dotted = front ++ y :: behind ∧
        x ≠ y ∧ collate small dotted = if isUpper x = isUpper y then compare x.toNat y.toNat
          else if isUpper x then .gt else .lt) ∧
      collate small dotted = .lt ∧ collate dotted longer = .lt ∧ collate small longer ≠ .gt := by
  intro small dotted longer
  have hsame : caseless small = caseless dotted := by decide +kernel
  have hdiffer : small ≠ dotted := by decide +kernel
  have hlonger : caseless dotted ≠ caseless longer := by decide +kernel
  have hsmall : collate small dotted = .lt := by decide +kernel
  have hlex : List.Lex (fun x y : Char => x.toNat < y.toNat) (caseless dotted) (caseless longer) :=
    .cons (.cons .nil)
  obtain ⟨-, -, -, hfolded, -⟩ := collate_total dotted longer small
  have hdotted : collate dotted longer = .lt := (hfolded hlonger).2 hlex
  obtain ⟨-, -, htrans, -, hcase⟩ := collate_total small dotted longer
  exact ⟨hsame, hdiffer, hlonger, hcase hsame hdiffer, hsmall, hdotted,
    htrans (by rw [hsmall]; decide) (by rw [hdotted]; decide)⟩

end Text

end LooseRecords
