import LooseRecords.Proofs.Number.Numeral
import LooseRecords.Proofs.Selection
import LooseRecords.Proofs.Text.Blank
import Mathlib.Data.List.Basic

/-!
# What a selection denotes

Which positions the text of a selection denotes, with numbers as large as they are written. The
selected positions are these and no others, although numbers beyond the greatest position are cut
off on the way: `Selection.positions_denoted`.
-/

namespace LooseRecords

namespace Selection

/-! ## Leading integers -/

/-- A text starts with an integer: behind a plus sign or without one, with digits as far as they
go. -/
inductive Leads : List Char → Nat → Prop where
  | digits {sign digits rest : List Char} (hsign : sign = [] ∨ sign = ['+'])
    (hne : digits ≠ []) (hdigits : AllDigits digits)
    (hrest : ∀ c ∈ rest.head?, c.isDigit = false) :
    Leads (sign ++ (digits ++ rest)) (Numeral.natural digits)

/-- A text without its plus sign. -/
def unsigned (text : List Char) : List Char :=
  if text.head? = some '+' then text.drop 1 else text

theorem exists_sign (text : List Char) :
    ∃ sign, (sign = [] ∨ sign = ['+']) ∧ text = sign ++ unsigned text := by
  unfold unsigned
  split
  case isTrue hplus =>
    obtain ⟨rest, rfl⟩ := List.head?_eq_some_iff.1 hplus
    exact ⟨['+'], .inr rfl, rfl⟩
  case isFalse => exact ⟨[], .inl rfl, rfl⟩

theorem unsigned_append {sign digits : List Char} (hsign : sign = [] ∨ sign = ['+'])
    (hne : digits ≠ []) (hdigits : AllDigits digits) (rest : List Char) :
    unsigned (sign ++ (digits ++ rest)) = digits ++ rest := by
  rcases hsign with rfl | rfl
  · obtain ⟨c, digits, rfl⟩ := List.exists_cons_of_ne_nil hne
    have hc : c ≠ '+' := by
      rintro rfl
      exact absurd (hdigits '+' List.mem_cons_self) (by decide)
    simp [unsigned, hc]
  · rfl

/-- The position that a text means is the integer that it starts with, cut off at the greatest
position. -/
theorem leadingPosition?_eq_some_iff (text : List Char) (p : Nat) :
    leadingPosition? text = some p ↔ ∃ n, Leads (Text.trim text) n ∧ p = min n greatest := by
  have hread : leadingPosition? text =
      if ((unsigned (Text.trim text)).takeWhile Char.isDigit).isEmpty then none
      else some (min (Numeral.natural ((unsigned (Text.trim text)).takeWhile Char.isDigit))
        greatest) := rfl
  rw [hread]
  generalize Text.trim text = trimmed
  constructor
  · intro h
    split at h
    case isTrue => cases h
    case isFalse hne =>
      cases h
      obtain ⟨sign, hsign, htext⟩ := exists_sign trimmed
      refine ⟨_, ?_, rfl⟩
      have hall : AllDigits ((unsigned trimmed).takeWhile Char.isDigit) :=
        fun c hc => List.all_eq_true.1 List.all_takeWhile c hc
      have hrest : ∀ c ∈ ((unsigned trimmed).dropWhile Char.isDigit).head?, c.isDigit = false := by
        intro c hc
        have hstop := List.head?_dropWhile_not Char.isDigit (unsigned trimmed)
        rw [Option.mem_def.1 hc] at hstop
        exact hstop
      have hleads := Leads.digits hsign (by simpa using hne) hall hrest
      rwa [List.takeWhile_append_dropWhile, ← htext] at hleads
  · rintro ⟨n, hleads, rfl⟩
    cases hleads with
    | digits hsign hne hdigits hrest =>
      rw [unsigned_append hsign hne hdigits, (hdigits.takeWhile_append hrest).1,
        if_neg (by simpa using hne)]

/-! ## Parts of a selection -/

/-- The positions that a part of a selection denotes. A part without a hyphen denotes the integer
that it starts with. A part with hyphens denotes the integers from the one at the start of its first
piece to the one at the start of its second piece; further pieces do not count. -/
inductive Denotes : List Char → Nat → Prop where
  | single {part : List Char} {n : Nat} (hpart : '-' ∉ part) (h : Leads part n) : Denotes part n
  | range {first last rest : List Char} {a b i : Nat} (hfirst : '-' ∉ first) (hlast : '-' ∉ last)
    (hrest : rest = [] ∨ rest.head? = some '-') (ha : Leads (Text.trim first) a)
    (hb : Leads (Text.trim last) b) (hlow : a ≤ i) (hhigh : i ≤ b) :
    Denotes (first ++ '-' :: (last ++ rest)) i

theorem span?_of_not_mem {part : List Char} (h : '-' ∉ part) :
    span? part = (leadingPosition? part).map fun n => ⟨n, n⟩ := by
  rw [span?, List.splitOn_eq_singleton h]

/-- The span of a part with hyphens ends at its first two pieces. -/
theorem span?_pieces {first last rest : List Char} (hfirst : '-' ∉ first) (hlast : '-' ∉ last)
    (hrest : rest = [] ∨ rest.head? = some '-') (s : Span) :
    span? (first ++ '-' :: (last ++ rest)) = some s ↔
      leadingPosition? first = some s.first ∧ leadingPosition? last = some s.last := by
  have hpieces : ∃ others, (first ++ '-' :: (last ++ rest)).splitOn '-' =
      first :: last :: others := by
    rw [List.splitOn_append_cons_self_of_not_mem hfirst]
    rcases hrest with rfl | hrest
    · exact ⟨[], by rw [List.append_nil, List.splitOn_eq_singleton hlast]⟩
    · obtain ⟨tail, rfl⟩ := List.head?_eq_some_iff.1 hrest
      exact ⟨tail.splitOn '-', by rw [List.splitOn_append_cons_self_of_not_mem hlast]⟩
  obtain ⟨others, hpieces⟩ := hpieces
  obtain ⟨a, b⟩ := s
  rw [span?, hpieces]
  dsimp only
  cases leadingPosition? first <;> cases leadingPosition? last <;> simp

/-- A part with a hyphen falls into a first piece, a second piece and what is behind them. -/
theorem exists_pieces {part : List Char} (h : '-' ∈ part) :
    ∃ first last rest, part = first ++ '-' :: (last ++ rest) ∧ '-' ∉ first ∧ '-' ∉ last ∧
      (rest = [] ∨ rest.head? = some '-') := by
  obtain ⟨first, behind, rfl, hfirst⟩ := List.eq_append_cons_of_mem h
  by_cases hbehind : '-' ∈ behind
  · obtain ⟨last, rest, rfl, hlast⟩ := List.eq_append_cons_of_mem hbehind
    exact ⟨first, last, '-' :: rest, rfl, hfirst, hlast, .inr rfl⟩
  · exact ⟨first, behind, [], by rw [List.append_nil], hfirst, hbehind, .inl rfl⟩

/-- Below the greatest position the span of a part has the positions that the part denotes: there a
number that was cut off lies beyond every position, as it did before. -/
theorem span?_contains_iff {part : List Char} (htrim : Text.trim part = part) {i : Nat}
    (hi : i < greatest) :
    (∃ s, span? part = some s ∧ s.contains i = true) ↔ Denotes part i := by
  constructor
  · rintro ⟨s, hs, hcontains⟩
    obtain ⟨hlow, hhigh⟩ := (Span.contains_iff s i).1 hcontains
    by_cases hpart : '-' ∈ part
    · obtain ⟨first, last, rest, rfl, hfirst, hlast, hrest⟩ := exists_pieces hpart
      obtain ⟨hfrom, hto⟩ := (span?_pieces hfirst hlast hrest s).1 hs
      obtain ⟨a, ha, hsfirst⟩ := (leadingPosition?_eq_some_iff _ _).1 hfrom
      obtain ⟨b, hb, hslast⟩ := (leadingPosition?_eq_some_iff _ _).1 hto
      exact .range hfirst hlast hrest ha hb (by omega) (by omega)
    · rw [span?_of_not_mem hpart] at hs
      obtain ⟨p, hp, rfl⟩ := Option.map_eq_some_iff.1 hs
      obtain ⟨n, hn, hpn⟩ := (leadingPosition?_eq_some_iff _ _).1 hp
      obtain rfl : i = n := by
        simp only at hlow hhigh
        omega
      rw [htrim] at hn
      exact .single hpart hn
  · intro h
    cases h with
    | single hpart hleads =>
      rw [← htrim] at hleads
      have hread := (leadingPosition?_eq_some_iff part _).2 ⟨i, hleads, rfl⟩
      refine ⟨⟨min i greatest, min i greatest⟩, ?_, (Span.contains_iff _ i).2 ?_⟩
      · rw [span?_of_not_mem hpart, hread]
        rfl
      · simp only
        omega
    | range hfirst hlast hrest ha hb hlow hhigh =>
      refine ⟨⟨_, _⟩, (span?_pieces hfirst hlast hrest _).2
        ⟨(leadingPosition?_eq_some_iff _ _).2 ⟨_, ha, rfl⟩,
          (leadingPosition?_eq_some_iff _ _).2 ⟨_, hb, rfl⟩⟩, (Span.contains_iff _ i).2 ?_⟩
      simp only
      omega

/-! ## Cutting numbers off -/

/-- The number that digits denote, cut off at the greatest position after each digit. -/
def saturated (digits : List Char) : Nat :=
  digits.foldl (fun n c => min (min (n * 10) greatest + (c.toNat - '0'.toNat)) greatest) 0

/-- It makes no difference whether a number is cut off after each digit or once at the end. -/
theorem saturated_eq (digits : List Char) :
    saturated digits = min (Numeral.natural digits) greatest := by
  have hfrom : ∀ n m, n = min m greatest →
      digits.foldl (fun n c => min (min (n * 10) greatest + (c.toNat - '0'.toNat)) greatest) n =
        min (Nat.ofDigitChars 10 digits m) greatest := by
    -- From any number in front, cut off on one side and not on the other.
    induction digits with
    | nil => exact fun n m h => h
    | cons c digits ih =>
      intro n m h
      refine ih _ _ ?_
      dsimp only
      omega
  exact hfrom 0 0 (by simp)

/-! ## The positions of a selection -/

/-- The selected positions below a length are those below it that some part between commas denotes,
in ascending order. Numbers count as they are written: cutting them off, after each digit or once,
neither adds a position nor loses one. -/
theorem positions_denoted (selection : String) {length : Nat} (h : length ≤ greatest) :
    (positions selection length).Pairwise (· < ·) ∧
      (∀ i, i ∈ positions selection length ↔
        i < length ∧ ∃ part ∈ Text.listed selection.toList, Denotes part i) ∧
      ∀ digits, saturated digits = min (Numeral.natural digits) greatest := by
  refine ⟨pairwise_positions selection length, fun i => ?_, saturated_eq⟩
  rw [mem_positions_iff]
  have hspans : i < length → ((∃ s ∈ spans selection, s.contains i = true) ↔
      ∃ part ∈ Text.listed selection.toList, Denotes part i) := by
    intro hi
    have hpart : ∀ part ∈ Text.listed selection.toList,
        ((∃ s, span? part = some s ∧ s.contains i = true) ↔ Denotes part i) := by
      intro part hpart
      obtain ⟨piece, -, rfl⟩ := List.mem_map.1 hpart
      exact span?_contains_iff (Text.trim_trim piece) (by omega)
    constructor
    · rintro ⟨s, hs, hcontains⟩
      obtain ⟨part, hmem, hspan⟩ := List.mem_filterMap.1 hs
      exact ⟨part, hmem, (hpart part hmem).1 ⟨s, hspan, hcontains⟩⟩
    · rintro ⟨part, hmem, hdenotes⟩
      obtain ⟨s, hspan, hcontains⟩ := (hpart part hmem).2 hdenotes
      exact ⟨s, List.mem_filterMap.2 ⟨part, hmem, hspan⟩, hcontains⟩
  constructor
  · rintro ⟨hi, -, hs⟩
    exact ⟨hi, (hspans hi).1 hs⟩
  · rintro ⟨hi, hdenotes⟩
    exact ⟨hi, by omega, (hspans hi).2 hdenotes⟩

/-- A range that ends before it begins, an integer with a sign in front and a letter behind it, a
range with an end beyond every position and a third piece, and a range without a beginning. -/
theorem positions_denoted_far :
    let selection := "1-0, +2x ,7-99999999999999999999-3,-4"
    9 ≤ greatest ∧ positions selection 9 = [2, 7, 8] ∧
      ∀ i, i ∈ positions selection 9 ↔
        i < 9 ∧ ∃ part ∈ Text.listed selection.toList, Denotes part i := by
  intro selection
  have hlength : 9 ≤ greatest := by decide
  exact ⟨hlength, by decide +kernel, (positions_denoted selection hlength).2.1⟩

end Selection

end LooseRecords
