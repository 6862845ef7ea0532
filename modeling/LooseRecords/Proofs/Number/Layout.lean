import LooseRecords.Proofs.Number.Numeral
import LooseRecords.Proofs.Number.Shortest

/-!
# Written numbers read back

A layout writes a positive magnitude as a numeral, `Layout.numeral`. `Layout.chars_numeral` says
that this is the text of the layout, and `Layout.number_numeral` that the numeral denotes the number
that was written, whichever layout it is.
-/

namespace LooseRecords

/-- Digits of which the first is not zero. -/
structure Significant (digits : List Char) : Prop where
  allDigits : AllDigits digits
  head : ∃ c rest, digits = c :: rest ∧ c ≠ '0'

namespace Significant

theorem ne_nil {digits : List Char} (h : Significant digits) : digits ≠ [] := by
  obtain ⟨c, rest, rfl, -⟩ := h.head
  simp

/-- The digits of a positive number are significant. -/
theorem toDigits {n : Nat} (h : n ≠ 0) : Significant (Nat.toDigits 10 n) := by
  refine ⟨.toDigits n, ?_⟩
  induction n using Nat.strongRecOn with
  | ind n ih =>
    rw [Nat.toDigits_eq_if (by decide)]
    split
    case isTrue hlt =>
      refine ⟨n.digitChar, [], rfl, ?_⟩
      have hdigit : ∀ m : Fin 10, m.val ≠ 0 → m.val.digitChar ≠ '0' := by decide
      exact hdigit ⟨n, hlt⟩ h
    case isFalse hge =>
      obtain ⟨c, rest, hdigits, hc⟩ := ih (n / 10) (by omega) (by omega)
      exact ⟨c, rest ++ [(n % 10).digitChar], by rw [hdigits]; rfl, hc⟩

end Significant

namespace Number

namespace Layout

/-! ## Digits of a decimal -/

/-- Without the zeros at its end a text is the same up to those zeros. -/
theorem exists_zeros (digits : List Char) :
    ∃ n, digits = (digits.reverse.dropWhile (· == '0')).reverse ++ zeros n := by
  refine ⟨(digits.reverse.takeWhile (· == '0')).length, ?_⟩
  have hzeros : (digits.reverse.takeWhile (· == '0')).reverse =
      zeros (digits.reverse.takeWhile (· == '0')).length := by
    rw [zeros, List.eq_replicate_iff]
    refine ⟨List.length_reverse, fun c hc => ?_⟩
    simpa using (List.all_eq_true.1 List.all_takeWhile) c (List.mem_reverse.1 hc)
  rw [← hzeros, ← List.reverse_append, List.takeWhile_append_dropWhile, List.reverse_reverse]

/-- The digits of a decimal without the zeros at their end, and the point that these zeros move. -/
theorem digitsAndPoint_eq (d : Decimal) :
    ∃ n, Nat.toDigits 10 d.digits = (digitsAndPoint d).1 ++ zeros n ∧
      (digitsAndPoint d).2 = ((digitsAndPoint d).1.length + n : Nat) + d.exponent := by
  obtain ⟨n, hall⟩ := exists_zeros (Nat.toDigits 10 d.digits)
  refine ⟨n, hall, ?_⟩
  show ((Nat.toDigits 10 d.digits).length : Int) + d.exponent = _
  rw [hall, List.length_append, zeros, List.length_replicate]
  rfl

/-- The digits of a positive decimal are significant, and with their point they have its rank. -/
theorem digitsAndPoint_spec {d : Decimal} (h : d.digits ≠ 0) :
    Significant (digitsAndPoint d).1 ∧
      Decimal.rank ⟨Numeral.natural (digitsAndPoint d).1,
        (digitsAndPoint d).2 - (digitsAndPoint d).1.length⟩ = d.rank := by
  obtain ⟨n, hall, hpoint⟩ := digitsAndPoint_eq d
  obtain ⟨hdigits, c, rest, hcons, hc⟩ := Significant.toDigits h
  generalize (digitsAndPoint d).1 = digits at *
  generalize (digitsAndPoint d).2 = point at *
  have hnatural := Numeral.natural_mul_pow hall
  constructor
  · refine ⟨hdigits.sublist (hall ▸ List.sublist_append_left ..), ?_⟩
    cases digits with
    -- Zeros alone would denote zero.
    | nil =>
      have hzero : d.digits = 0 := by simpa [Numeral.natural] using hnatural.symm
      exact absurd hzero h
    | cons d' rest' =>
      rw [hcons] at hall
      cases hall
      exact ⟨c, rest', rfl, hc⟩
  · have hexponent : point - digits.length = d.exponent + n := by omega
    rw [hexponent, ← Decimal.rank_mul_pow, hnatural]

/-! ## The numeral of a layout -/

/-- The numeral that is written positionally. -/
def positionalNumeral (keepsFraction : Bool) (digits : List Char) (point : Int) : Numeral :=
  if point ≤ 0 then
    { sign := none, whole := ['0'], fraction := some (zeros (-point).toNat ++ digits)
      power := none }
  else if point < digits.length then
    { sign := none, whole := digits.take point.toNat, fraction := some (digits.drop point.toNat)
      power := none }
  else
    { sign := none, whole := digits ++ zeros (point.toNat - digits.length)
      fraction := if keepsFraction then some ['0'] else none, power := none }

/-- The numeral that is written with an exponent. -/
def scientificNumeral (digits : List Char) (point : Int) : Numeral :=
  let power := some (decide (point - 1 < 0), Nat.toDigits 10 (point - 1).natAbs)
  match digits with
  | d :: e :: rest => { sign := none, whole := [d], fraction := some (e :: rest), power }
  | short => { sign := none, whole := short, fraction := none, power }

/-- The numeral of digits with a point, in the shape that a layout has for them. -/
def shape (layout : Layout) (digits : List Char) (point : Int) : Numeral :=
  if layout.least ≤ point && point ≤ layout.greatest then
    positionalNumeral layout.keepsFraction digits point
  else scientificNumeral digits point

/-- The numeral of a positive magnitude with a sign. -/
def numeral (layout : Layout) (negative : Bool) (rank : Nat) : Numeral :=
  (layout.shape (digitsAndPoint (Rank.shortest layout.tie rank)).1
    (digitsAndPoint (Rank.shortest layout.tie rank)).2).signed negative

/-! ## The text of the numeral -/

theorem chars_positionalNumeral (keepsFraction : Bool) (digits : List Char) (point : Int) :
    (positionalNumeral keepsFraction digits point).chars =
      positional keepsFraction digits point := by
  unfold positionalNumeral positional
  split
  · simp [Numeral.chars, Numeral.fractionChars, Numeral.powerChars]
  · split
    · simp [Numeral.chars, Numeral.fractionChars, Numeral.powerChars]
    · cases keepsFraction <;> simp [Numeral.chars, Numeral.fractionChars, Numeral.powerChars]

theorem chars_scientificNumeral (digits : List Char) (point : Int) :
    (scientificNumeral digits point).chars = scientific digits point := by
  match digits with
  | [] | [d] | d :: e :: rest =>
    simp [scientificNumeral, scientific, Numeral.chars, Numeral.fractionChars, Numeral.powerChars]

/-- The text of a magnitude is that of its digits in the shape of the layout. -/
theorem magnitude_eq (layout : Layout) (rank : Nat) :
    layout.magnitude rank =
      (layout.shape (digitsAndPoint (Rank.shortest layout.tie rank)).1
        (digitsAndPoint (Rank.shortest layout.tie rank)).2).chars := by
  rw [magnitude]
  -- The digits become a variable, lest anything computes them.
  generalize digitsAndPoint (Rank.shortest layout.tie rank) = pair
  obtain ⟨digits, point⟩ := pair
  simp only [shape]
  split
  · exact (chars_positionalNumeral ..).symm
  · exact (chars_scientificNumeral ..).symm

theorem sign_shape (layout : Layout) (digits : List Char) (point : Int) :
    (layout.shape digits point).sign = none := by
  unfold shape positionalNumeral scientificNumeral
  repeat' split
  all_goals rfl

/-- The text of a layout is that of its numeral. -/
theorem chars_numeral (layout : Layout) (negative : Bool) (rank : Nat) :
    (layout.numeral negative rank).chars = signChars negative ++ layout.magnitude rank := by
  rw [magnitude_eq, numeral]
  exact Numeral.chars_signed (sign_shape ..) negative

/-! ## What the numeral denotes -/

/-- A numeral without a power of ten denotes its digits, cut by the length of its fraction. -/
theorem rank_positionalNumeral (keepsFraction : Bool) (digits : List Char) (point : Int) :
    (positionalNumeral keepsFraction digits point).decimal.rank =
      Decimal.rank ⟨Numeral.natural digits, point - digits.length⟩ := by
  unfold positionalNumeral
  split
  case isTrue hpoint =>
    have hnatural : Numeral.natural (['0'] ++ (zeros (-point).toNat ++ digits)) =
        Numeral.natural digits := Numeral.natural_zeros_append ((-point).toNat + 1) digits
    have hlength : (0 : Int) - (zeros (-point).toNat ++ digits).length = point - digits.length := by
      simp only [zeros, List.length_append, List.length_replicate]
      omega
    simp only [Numeral.decimal, Option.getD_some, hnatural, hlength]
  case isFalse hpoint =>
    split
    case isTrue hlt =>
      have hlength : (0 : Int) - (digits.drop point.toNat).length = point - digits.length := by
        rw [List.length_drop]
        omega
      simp only [Numeral.decimal, Option.getD_some, List.take_append_drop, hlength]
    case isFalse hge =>
      have hexponent : point - digits.length = (point.toNat - digits.length : Nat) := by omega
      cases keepsFraction with
      | false =>
        simp only [Numeral.decimal, Bool.false_eq_true, if_false, Option.getD_none, List.append_nil,
          List.length_nil, Numeral.natural_append_zeros]
        rw [Decimal.rank_mul_pow, hexponent]
        congr 2
        omega
      | true =>
        have hzeros : digits ++ zeros (point.toNat - digits.length) ++ ['0'] =
            digits ++ zeros (point.toNat - digits.length + 1) := by
          rw [List.append_assoc, zeros, zeros, List.replicate_succ']
        simp only [Numeral.decimal, if_true, Option.getD_some, hzeros,
          Numeral.natural_append_zeros]
        rw [Decimal.rank_mul_pow, hexponent]
        congr 2
        simp only [List.length_cons, List.length_nil]
        omega

theorem rank_scientificNumeral {digits : List Char} (h : digits ≠ []) (point : Int) :
    (scientificNumeral digits point).decimal.rank =
      Decimal.rank ⟨Numeral.natural digits, point - digits.length⟩ := by
  have hpower : (if decide (point - 1 < 0) = true then
      -(Numeral.natural (Nat.toDigits 10 (point - 1).natAbs) : Int)
      else Numeral.natural (Nat.toDigits 10 (point - 1).natAbs)) = point - 1 := by
    rw [Numeral.natural_toDigits]
    split
    case isTrue h =>
      have hlt := of_decide_eq_true h
      omega
    case isFalse h =>
      have hge : ¬ point - 1 < 0 := fun hlt => h (decide_eq_true hlt)
      omega
  match digits with
  | [d] =>
    have hlength : point - 1 - (List.length ([] : List Char)) = point - [d].length := by simp
    simp only [scientificNumeral, Numeral.decimal, hpower, Option.getD_none, hlength,
      List.append_nil]
  | d :: e :: rest =>
    have hlength : point - 1 - (e :: rest).length = point - (d :: e :: rest).length := by
      simp only [List.length_cons]
      omega
    simp only [scientificNumeral, Numeral.decimal, hpower, Option.getD_some, hlength]
    rfl

theorem rank_shape (layout : Layout) {digits : List Char} (h : digits ≠ []) (point : Int) :
    (layout.shape digits point).decimal.rank =
      Decimal.rank ⟨Numeral.natural digits, point - digits.length⟩ := by
  unfold shape
  split
  · exact rank_positionalNumeral ..
  · exact rank_scientificNumeral h point

/-- The numeral of a magnitude denotes that magnitude with its sign. -/
theorem number_numeral (layout : Layout) (negative : Bool) {rank : Nat} (hpos : 0 < rank)
    (h : rank < Rank.count) :
    (layout.numeral negative rank).number = .finite negative ⟨rank, h⟩ := by
  have hle : rank ≤ Rank.count := Nat.le_of_lt h
  obtain ⟨hdigits, hrank⟩ := digitsAndPoint_spec (Rank.digits_shortest_ne_zero layout.tie hpos hle)
  rw [Numeral.number, numeral, Numeral.decimal_signed, Numeral.negative_signed, Decimal.number,
    rank_shape layout hdigits.ne_nil, hrank, Rank.rank_shortest layout.tie hle, ofRank, dif_pos h]

/-! ## The shape of the numeral -/

theorem wellFormed_positionalNumeral {digits : List Char} (h : AllDigits digits)
    (keepsFraction : Bool) (point : Int) :
    (positionalNumeral keepsFraction digits point).WellFormed := by
  have hzero : AllDigits ['0'] := .zeros 1
  unfold positionalNumeral
  split
  · refine ⟨by simp, hzero, ?_, by simp⟩
    intro fraction hfraction
    cases hfraction
    exact (AllDigits.zeros _).append h
  · split
    · refine ⟨by simp, h.sublist (List.take_sublist ..), ?_, by simp⟩
      intro fraction hfraction
      cases hfraction
      exact h.sublist (List.drop_sublist ..)
    · refine ⟨by simp, h.append (.zeros _), ?_, by simp⟩
      intro fraction hfraction
      cases keepsFraction
      · cases hfraction
      · cases hfraction
        exact hzero

theorem wellFormed_scientificNumeral {digits : List Char} (h : AllDigits digits) (point : Int) :
    (scientificNumeral digits point).WellFormed := by
  have hpower : ∀ p ∈ some (decide (point - 1 < 0), Nat.toDigits 10 (point - 1).natAbs),
      p.2 ≠ [] ∧ AllDigits p.2 := by
    intro p hp
    cases hp
    exact ⟨Nat.toDigits_ne_nil, .toDigits _⟩
  unfold scientificNumeral
  split
  case h_1 d e rest =>
    refine ⟨by simp, h.sublist (by simp), ?_, hpower⟩
    intro fraction hfraction
    cases hfraction
    exact h.sublist (List.sublist_cons_self ..)
  case h_2 => exact ⟨by simp, h, by simp, hpower⟩

theorem wellFormed_shape (layout : Layout) {digits : List Char} (h : AllDigits digits)
    (point : Int) : (layout.shape digits point).WellFormed := by
  unfold shape
  split
  · exact wellFormed_positionalNumeral h ..
  · exact wellFormed_scientificNumeral h point

/-- Significant digits are written as JSON wants it: no needless zero in front, and no bare
point. -/
theorem isJson_shape (layout : Layout) {digits : List Char} (h : Significant digits)
    (point : Int) : (layout.shape digits point).isJson = true := by
  obtain ⟨c, rest, rfl, hc⟩ := h.head
  unfold shape
  split
  · unfold positionalNumeral
    split
    · simp [Numeral.isJson]
    · split
      case isTrue hpos hlt =>
        obtain ⟨n, hn⟩ : ∃ n, point.toNat = n + 1 := ⟨point.toNat - 1, by omega⟩
        have hshort : n < rest.length := by
          rw [List.length_cons] at hlt
          omega
        simp [Numeral.isJson, hn, hc, Nat.not_le.2 hshort]
      case isFalse => cases layout.keepsFraction <;> simp [Numeral.isJson, hc]
  · unfold scientificNumeral
    split
    case h_1 heq =>
      cases heq
      simp [Numeral.isJson, hc]
    case h_2 => simp [Numeral.isJson, hc]

/-- A layout that keeps fractions never writes an integer. -/
theorem toInt?_shape {layout : Layout} (h : layout.keepsFraction = true) (digits : List Char)
    (point : Int) (negative : Bool) :
    ((layout.shape digits point).signed negative).toInt? = none := by
  unfold shape positionalNumeral scientificNumeral
  simp only [h, if_true]
  repeat' split
  all_goals rfl

theorem length_whole_scientificNumeral (digits : List Char) (point : Int) :
    (scientificNumeral digits point).whole.length ≤ 1 := by
  match digits with
  | [] => exact Nat.zero_le 1
  | [d] | d :: e :: rest => exact Nat.le_refl 1

/-- No more digits stand in front of the point than a layout writes positionally. -/
theorem length_whole_shape {layout : Layout} (h : 1 ≤ layout.greatest) (digits : List Char)
    (point : Int) : ((layout.shape digits point).whole.length : Int) ≤ layout.greatest := by
  unfold shape
  split
  case isTrue hrange =>
    rw [Bool.and_eq_true, decide_eq_true_eq, decide_eq_true_eq] at hrange
    unfold positionalNumeral
    split
    · exact h
    · split
      · rw [List.length_take]
        omega
      · rw [List.length_append, zeros, List.length_replicate]
        omega
  case isFalse =>
    exact (Int.ofNat_le.2 (length_whole_scientificNumeral digits point)).trans h

theorem length_whole_numeral {layout : Layout} (h : 1 ≤ layout.greatest) (negative : Bool)
    (rank : Nat) : ((layout.numeral negative rank).whole.length : Int) ≤ layout.greatest := by
  rw [numeral, Numeral.whole_signed]
  exact length_whole_shape h ..

/-- The numeral of a magnitude is well-formed and a numeral of JSON. -/
theorem numeral_spec (layout : Layout) (negative : Bool) {rank : Nat} (hpos : 0 < rank)
    (h : rank < Rank.count) :
    (layout.numeral negative rank).WellFormed ∧ (layout.numeral negative rank).isJson = true := by
  obtain ⟨hdigits, -⟩ := digitsAndPoint_spec
    (Rank.digits_shortest_ne_zero layout.tie hpos (Nat.le_of_lt h))
  exact ⟨(wellFormed_shape layout hdigits.allDigits _).signed negative,
    Numeral.isJson_signed (isJson_shape layout hdigits _) negative⟩

end Layout

end Number

end LooseRecords
