import LooseRecords.Number.Layout
import LooseRecords.Number.Numeral
import Mathlib.Data.List.Induction
import Mathlib.Tactic.Ring

/-!
# Numerals as text

`Numeral.chars` writes a numeral out, and `Numeral.ofChars?_chars` says that the text is taken
apart into the same numeral again.
-/

namespace LooseRecords

/-- Every character is a decimal digit. -/
def AllDigits (text : List Char) : Prop := ∀ c ∈ text, c.isDigit = true

namespace AllDigits

theorem append {a b : List Char} (ha : AllDigits a) (hb : AllDigits b) : AllDigits (a ++ b) := by
  intro c hc
  rcases List.mem_append.1 hc with h | h
  · exact ha c h
  · exact hb c h

theorem zeros (n : Nat) : AllDigits (Number.Layout.zeros n) := by
  intro c hc
  obtain rfl := List.eq_of_mem_replicate hc
  rfl

theorem toDigits (n : Nat) : AllDigits (Nat.toDigits 10 n) := fun _ =>
  Nat.isDigit_of_mem_toDigits (by decide) (by decide)

/-- Part of digits is digits. -/
theorem sublist {a b : List Char} (hb : AllDigits b) (h : a.Sublist b) : AllDigits a :=
  fun c hc => hb c (h.subset hc)

/-- Digits end where something else begins. -/
theorem takeWhile_append {digits rest : List Char} (h : AllDigits digits)
    (hrest : ∀ c ∈ rest.head?, c.isDigit = false) :
    (digits ++ rest).takeWhile Char.isDigit = digits ∧
      (digits ++ rest).dropWhile Char.isDigit = rest := by
  rw [List.takeWhile_append_of_pos h, List.dropWhile_append_of_pos h]
  cases rest with
  | nil => simp
  | cons c rest =>
    have hc := hrest c rfl
    simp [hc]

end AllDigits

namespace Numeral

/-! ## The numbers that digits denote -/

theorem natural_toDigits (n : Nat) : natural (Nat.toDigits 10 n) = n :=
  Nat.ofDigitChars_ten_toDigits

/-- The code of a digit. -/
theorem toNat_of_isDigit {c : Char} (h : c.isDigit = true) :
    '0'.toNat ≤ c.toNat ∧ c.toNat < '0'.toNat + 10 := by
  simp only [Char.isDigit, Bool.and_eq_true, decide_eq_true_eq, ge_iff_le,
    UInt32.le_iff_toNat_le] at h
  have hlow : 48 ≤ c.toNat := h.1
  have hhigh : c.toNat ≤ 57 := h.2
  have hzero : '0'.toNat = 48 := rfl
  omega

/-- A digit behind others. -/
theorem natural_concat (digits : List Char) (c : Char) :
    natural (digits ++ [c]) = natural digits * 10 + (c.toNat - '0'.toNat) := by
  simp [natural, Nat.ofDigitChars, Nat.mul_comm]

/-- Digits behind others. -/
theorem natural_append (front behind : List Char) :
    natural (front ++ behind) = natural front * 10 ^ behind.length + natural behind := by
  induction behind using List.reverseRecOn with
  | nil => simp [natural]
  | append_singleton behind c ih =>
    rw [← List.append_assoc, natural_concat, natural_concat, ih, List.length_append,
      List.length_singleton, Nat.pow_succ]
    ring

/-- Digits denote less than the power of ten of their number. -/
theorem natural_lt {digits : List Char} (h : AllDigits digits) :
    natural digits < 10 ^ digits.length := by
  induction digits using List.reverseRecOn with
  | nil => decide
  | append_singleton digits c ih =>
    have hdigit := toNat_of_isDigit (h c (by simp))
    have hprefix := ih (h.sublist (List.sublist_append_left ..))
    rw [natural_concat, List.length_append, List.length_singleton, Nat.pow_succ]
    omega

/-- Zeros at the end multiply by powers of ten. -/
theorem natural_append_zeros (digits : List Char) (n : Nat) :
    natural (digits ++ Number.Layout.zeros n) = natural digits * 10 ^ n := by
  rw [natural, Nat.ofDigitChars_append, Number.Layout.zeros, Nat.ofDigitChars_replicate_zero,
    Nat.mul_comm]
  rfl

/-- Zeros in front count for nothing. -/
theorem natural_zeros_append (n : Nat) (digits : List Char) :
    natural (Number.Layout.zeros n ++ digits) = natural digits := by
  rw [natural, Nat.ofDigitChars_append, Number.Layout.zeros, Nat.ofDigitChars_replicate_zero,
    Nat.mul_zero]
  rfl

/-- The digits of a number without the zeros at their end, and what those are worth. -/
theorem natural_mul_pow {number n : Nat} {digits : List Char}
    (h : Nat.toDigits 10 number = digits ++ Number.Layout.zeros n) :
    natural digits * 10 ^ n = number := by
  rw [← natural_append_zeros, ← h, natural_toDigits]

/-! ## Text -/

/-- A point and the digits after it. -/
def fractionChars : Option (List Char) → List Char
  | none => []
  | some digits => '.' :: digits

/-- A power of ten, always with its sign. -/
def powerChars : Option (Bool × List Char) → List Char
  | none => []
  | some (negative, digits) => 'e' :: (if negative then '-' else '+') :: digits

/-- The text of a numeral. -/
def chars (n : Numeral) : List Char :=
  n.sign.toList ++ (n.whole ++ (fractionChars n.fraction ++ powerChars n.power))

/-- The parts of a numeral hold what belongs into them. -/
structure WellFormed (n : Numeral) : Prop where
  sign : ∀ c ∈ n.sign, c = '+' ∨ c = '-'
  whole : AllDigits n.whole
  fraction : ∀ digits ∈ n.fraction, AllDigits digits
  power : ∀ p ∈ n.power, p.2 ≠ [] ∧ AllDigits p.2

/-! ## Spellings -/

/-- The text of a power of ten: a mark in either case, perhaps a sign, and digits; or nothing. -/
inductive PowerSpelled : Option (Bool × List Char) → List Char → Prop where
  | unwritten : PowerSpelled none []
  | written {mark : Char} {sign : Option Char} {digits : List Char} (hmark : mark = 'e' ∨ mark = 'E')
    (hsign : ∀ c ∈ sign, c = '+' ∨ c = '-') (hne : digits ≠ []) (hdigits : AllDigits digits) :
    PowerSpelled (some (sign == some '-', digits)) (mark :: (sign.toList ++ digits))

/-- The texts of a numeral. They differ in how the power of ten is marked and whether its plus sign
is written. -/
inductive Spells (n : Numeral) : List Char → Prop where
  | parts {power : List Char} (h : n.WellFormed) (hpower : PowerSpelled n.power power) :
    Spells n (n.sign.toList ++ (n.whole ++ (fractionChars n.fraction ++ power)))

/-- The text that is written for a numeral is one of its texts. -/
theorem spells_chars {n : Numeral} (h : n.WellFormed) : n.Spells n.chars := by
  refine .parts h ?_
  cases hpower : n.power with
  | none => exact .unwritten
  | some p =>
    obtain ⟨negative, digits⟩ := p
    obtain ⟨hne, hdigits⟩ := h.power _ hpower
    cases negative with
    | true => exact @PowerSpelled.written _ (some '-') _ (.inl rfl) (by simp) hne hdigits
    | false => exact @PowerSpelled.written _ (some '+') _ (.inl rfl) (by simp) hne hdigits

/-! ### Characters -/

/-- A character that numerals are written with. -/
def Part (c : Char) : Prop := c.isDigit = true ∨ c ∈ ['+', '-', '.', 'e', 'E']

instance : DecidablePred Part := fun c =>
  inferInstanceAs (Decidable (c.isDigit = true ∨ c ∈ ['+', '-', '.', 'e', 'E']))

theorem part_of_sign {sign : Option Char} (h : ∀ c ∈ sign, c = '+' ∨ c = '-') :
    ∀ c ∈ sign.toList, Part c := by
  intro c hc
  rcases h c (Option.mem_toList.1 hc) with rfl | rfl <;> decide

theorem PowerSpelled.part {power : Option (Bool × List Char)} {text : List Char}
    (h : PowerSpelled power text) : ∀ c ∈ text, Part c := by
  cases h with
  | unwritten => simp
  | written hmark hsign _ hdigits =>
    refine List.forall_mem_cons.2 ⟨by rcases hmark with rfl | rfl <;> decide, ?_⟩
    exact List.forall_mem_append.2 ⟨part_of_sign hsign, fun c hc => .inl (hdigits c hc)⟩

/-- The texts of a numeral hold no other characters. -/
theorem Spells.part {n : Numeral} {text : List Char} (h : n.Spells text) :
    ∀ c ∈ text, Part c := by
  obtain @⟨power, h, hpower⟩ := h
  have hfraction : ∀ c ∈ fractionChars n.fraction, Part c := by
    cases hn : n.fraction with
    | none => simp [fractionChars]
    | some digits =>
      exact List.forall_mem_cons.2 ⟨by decide, fun c hc => .inl (h.fraction digits hn c hc)⟩
  simp only [List.forall_mem_append]
  exact ⟨part_of_sign h.sign, fun c hc => .inl (h.whole c hc), hfraction, hpower.part⟩

theorem mem_chars {n : Numeral} (h : n.WellFormed) : ∀ c ∈ n.chars, Part c :=
  (spells_chars h).part

/-- A text with another character than those of numerals is not the text of a numeral. -/
theorem chars_ne {n : Numeral} (h : n.WellFormed) {text : List Char}
    (hother : text.any (fun c => !decide (Part c)) = true) : n.chars ≠ text := by
  rintro rfl
  obtain ⟨c, hc, hno⟩ := List.any_eq_true.1 hother
  simp [n.mem_chars h c hc] at hno

/-! ### Signs in front -/

theorem sign_of_isDigit {c : Char} (h : c.isDigit = true) : c ≠ '+' ∧ c ≠ '-' := by
  constructor <;> rintro rfl <;> cases h

/-- A text that begins with no sign is left as it is. -/
theorem takeSign_of_head? {text : List Char} (h : ∀ c ∈ text.head?, c ≠ '+' ∧ c ≠ '-') :
    takeSign text = (none, text) := by
  cases text with
  | nil => rfl
  | cons c rest =>
    obtain ⟨hplus, hminus⟩ := h c rfl
    unfold takeSign
    split <;> simp_all

/-- A sign is cut off, and no other behind it. -/
theorem takeSign_append {sign : Option Char} (hsign : ∀ c ∈ sign, c = '+' ∨ c = '-')
    {text : List Char} (h : ∀ c ∈ text.head?, c ≠ '+' ∧ c ≠ '-') :
    takeSign (sign.toList ++ text) = (sign, text) := by
  cases sign with
  | none => exact takeSign_of_head? h
  | some c => rcases hsign c rfl with rfl | rfl <;> rfl

/-- What is cut off is a sign. -/
theorem eq_of_takeSign {text rest : List Char} {sign : Option Char}
    (h : takeSign text = (sign, rest)) :
    (∀ c ∈ sign, c = '+' ∨ c = '-') ∧ text = sign.toList ++ rest := by
  unfold takeSign at h
  split at h <;> cases h <;> simp

/-! ### Powers of ten -/

theorem PowerSpelled.wellFormed {power : Option (Bool × List Char)} {text : List Char}
    (h : PowerSpelled power text) : ∀ p ∈ power, p.2 ≠ [] ∧ AllDigits p.2 := by
  cases h with
  | unwritten => simp
  | written _ _ hne hdigits =>
    rintro p ⟨⟩
    exact ⟨hne, hdigits⟩

/-- A text is read as a power of ten exactly if it is the text of one. -/
theorem power?_eq_some_iff {text : List Char} {power : Option (Bool × List Char)} :
    power? text = some power ↔ PowerSpelled power text := by
  constructor
  · intro h
    unfold power? at h
    split at h
    case h_1 =>
      cases h
      exact .unwritten
    case h_2 mark rest =>
      split at h
      case isTrue hmark =>
        obtain ⟨⟨sign, digits⟩, htake⟩ : ∃ pair, takeSign rest = pair := ⟨_, rfl⟩
        obtain ⟨hsign, rfl⟩ := eq_of_takeSign htake
        simp only [htake, Option.ite_none_right_eq_some, Bool.and_eq_true, Bool.not_eq_true',
          List.isEmpty_eq_false_iff, List.all_eq_true, Option.some.injEq] at h
        obtain ⟨⟨hne, hdigits⟩, rfl⟩ := h
        exact .written (by simpa using hmark) hsign hne hdigits
      case isFalse => cases h
  · intro h
    cases h with
    | unwritten => rfl
    | @written mark sign digits hmark hsign hne hdigits =>
      have hmark' : (mark = 'e' || mark = 'E') = true := by simpa using hmark
      have hhead : ∀ c ∈ digits.head?, c ≠ '+' ∧ c ≠ '-' := fun c hc =>
        sign_of_isDigit (hdigits c (List.mem_of_head? hc))
      have hall : digits.all Char.isDigit = true := List.all_eq_true.2 hdigits
      simp only [power?, hmark', if_true, takeSign_append hsign hhead]
      simp [hne, hall]

/-- A power of ten begins with its mark. -/
theorem PowerSpelled.head? {power : Option (Bool × List Char)} {text : List Char}
    (h : PowerSpelled power text) : ∀ c ∈ text.head?, c = 'e' ∨ c = 'E' := by
  intro c hc
  cases h with
  | unwritten => cases hc
  | written hmark =>
    cases hc
    exact hmark

/-- A power of ten does not begin with a digit. -/
theorem PowerSpelled.isDigit_head? {power : Option (Bool × List Char)} {text : List Char}
    (h : PowerSpelled power text) : ∀ c ∈ text.head?, c.isDigit = false := by
  intro c hc
  rcases h.head? c hc with rfl | rfl <;> rfl

/-! ### Numerals -/

/-- What follows the whole digits begins neither with a digit nor with a sign. -/
theorem head?_fractionChars (fraction : Option (List Char)) {power : Option (Bool × List Char)}
    {text : List Char} (h : PowerSpelled power text) :
    ∀ c ∈ (fractionChars fraction ++ text).head?, c.isDigit = false ∧ c ≠ '+' ∧ c ≠ '-' := by
  intro c hc
  cases fraction with
  | none => rcases h.head? c hc with rfl | rfl <;> decide
  | some digits =>
    cases hc
    decide

/-- What follows the sign of a numeral begins with no sign. -/
theorem head?_unsigned {whole rest : List Char} (hwhole : AllDigits whole)
    (hrest : ∀ c ∈ rest.head?, c.isDigit = false ∧ c ≠ '+' ∧ c ≠ '-') :
    ∀ c ∈ (whole ++ rest).head?, c ≠ '+' ∧ c ≠ '-' := by
  intro c hc
  cases whole with
  | nil => exact (hrest c hc).2
  | cons d whole =>
    cases hc
    exact sign_of_isDigit (hwhole c (by simp))

/-- Every text of a numeral is taken apart into that numeral. -/
theorem ofChars?_of_spells {n : Numeral} {text : List Char} (h : n.Spells text) :
    ofChars? text = some n := by
  obtain @⟨power, h, hpower⟩ := h
  have hrest := head?_fractionChars n.fraction hpower
  obtain ⟨htake, hdrop⟩ := h.whole.takeWhile_append fun c hc => (hrest c hc).1
  unfold ofChars?
  simp only [takeSign_append h.sign (head?_unsigned h.whole hrest), htake, hdrop]
  cases hfraction : n.fraction with
  | none =>
    -- No power of ten begins with a point, so the match takes its second branch.
    have hpoint : ∀ rest, power ≠ '.' :: rest := by
      rintro rest rfl
      have hmark := hpower.head? '.' rfl
      simp at hmark
    simp only [fractionChars, List.nil_append, power?_eq_some_iff.2 hpower]
    simp [← hfraction]
  | some digits =>
    obtain ⟨htake', hdrop'⟩ :=
      (h.fraction digits hfraction).takeWhile_append hpower.isDigit_head?
    simp only [fractionChars, List.cons_append, htake', hdrop', power?_eq_some_iff.2 hpower]
    simp [← hfraction]

/-- The text of a numeral is taken apart into that numeral. -/
theorem ofChars?_chars {n : Numeral} (h : n.WellFormed) : ofChars? n.chars = some n :=
  ofChars?_of_spells (spells_chars h)

/-- What a text is taken apart into is a numeral of that text. -/
theorem spells_of_ofChars? {n : Numeral} {text : List Char} (h : ofChars? text = some n) :
    n.Spells text := by
  obtain ⟨⟨sign, unsigned⟩, htake⟩ : ∃ pair, takeSign text = pair := ⟨_, rfl⟩
  unfold ofChars? at h
  rw [htake] at h
  dsimp only at h
  obtain ⟨hsign, rfl⟩ := eq_of_takeSign htake
  have hdigits : ∀ text : List Char, AllDigits (text.takeWhile Char.isDigit) := fun text =>
    List.all_eq_true.1 List.all_takeWhile
  have hsplit : unsigned = unsigned.takeWhile Char.isDigit ++ unsigned.dropWhile Char.isDigit :=
    List.takeWhile_append_dropWhile.symm
  split at h
  case h_1 rest hrest =>
    obtain ⟨power, hpower, rfl⟩ := Option.map_eq_some_iff.1 h
    rw [power?_eq_some_iff] at hpower
    have hfraction : rest = rest.takeWhile Char.isDigit ++ rest.dropWhile Char.isDigit :=
      List.takeWhile_append_dropWhile.symm
    have hparts := Spells.parts (n := ⟨sign, unsigned.takeWhile Char.isDigit,
      some (rest.takeWhile Char.isDigit), power⟩) ⟨hsign, hdigits _, ?_, hpower.wellFormed⟩ hpower
    · simp only [fractionChars, List.cons_append] at hparts
      rwa [← hfraction, ← hrest, ← hsplit] at hparts
    · rintro digits ⟨⟩
      exact hdigits _
  case h_2 =>
    obtain ⟨power, hpower, rfl⟩ := Option.map_eq_some_iff.1 h
    rw [power?_eq_some_iff] at hpower
    have hparts := Spells.parts (n := ⟨sign, unsigned.takeWhile Char.isDigit, none, power⟩)
      ⟨hsign, hdigits _, by simp, hpower.wellFormed⟩ hpower
    simp only [fractionChars, List.nil_append] at hparts
    rwa [← hsplit] at hparts

/-- A text is taken apart into a numeral exactly if it is a text of that numeral. -/
theorem ofChars?_eq_some_iff {n : Numeral} {text : List Char} :
    ofChars? text = some n ↔ n.Spells text := ⟨spells_of_ofChars?, ofChars?_of_spells⟩

/-! ## Signs -/

/-- A numeral with a minus sign or with none. -/
def signed (n : Numeral) (negative : Bool) : Numeral :=
  { n with sign := if negative then some '-' else none }

theorem negative_signed (n : Numeral) (negative : Bool) :
    (n.signed negative).negative = negative := by
  cases negative <;> rfl

theorem decimal_signed (n : Numeral) (negative : Bool) : (n.signed negative).decimal = n.decimal :=
  rfl

theorem whole_signed (n : Numeral) (negative : Bool) : (n.signed negative).whole = n.whole := rfl

theorem chars_signed {n : Numeral} (h : n.sign = none) (negative : Bool) :
    (n.signed negative).chars = Number.signChars negative ++ n.chars := by
  cases negative <;> simp [signed, chars, Number.signChars, h]

theorem WellFormed.signed {n : Numeral} (h : n.WellFormed) (negative : Bool) :
    (n.signed negative).WellFormed := by
  refine ⟨?_, h.whole, h.fraction, h.power⟩
  cases negative <;> simp [Numeral.signed]

theorem isJson_signed {n : Numeral} (h : n.isJson = true) (negative : Bool) :
    (n.signed negative).isJson = true := by
  simp only [isJson, Bool.and_eq_true] at h ⊢
  refine ⟨⟨?_, h.1.2⟩, h.2⟩
  cases negative <;> rfl

end Numeral

end LooseRecords
