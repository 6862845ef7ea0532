import LooseRecords.Number.Reading
import LooseRecords.Proofs.Number.Halfway
import LooseRecords.Proofs.Number.Spelled
import LooseRecords.Proofs.Text.Blank
import Mathlib.Data.Nat.Digits.Defs

/-!
# Radix literals

The digits of a radix literal are accumulated in a number, and each step rounds. Nothing is lost up
to `2 ^ 53`. The first step that goes beyond rounds to the nearest number, and every digit after
that is taken for a zero, since it is less than half of what the number can tell apart. So the
number read is the nearest one unless the digits up to some place lie halfway between two numbers
and the digits behind it would decide: `Number.read_radixLiteral`.
-/

namespace LooseRecords

/-! ## Literals -/

/-- A character is a digit of a radix and has this value. Letters stand in either case. -/
def IsDigit (radix : Nat) (c : Char) (value : Nat) : Prop :=
  value < radix ∧ (c = value.digitChar ∨ c = value.digitChar.toUpper)

instance (radix : Nat) (c : Char) (value : Nat) : Decidable (IsDigit radix c value) :=
  inferInstanceAs (Decidable (_ ∧ _))

/-- The characters that announce a radix, behind a zero. -/
inductive RadixMark : Char → Nat → Prop where
  | hexadecimal {c : Char} (h : c = 'x' ∨ c = 'X') : RadixMark c 16
  | octal {c : Char} (h : c = 'o' ∨ c = 'O') : RadixMark c 8
  | binary {c : Char} (h : c = 'b' ∨ c = 'B') : RadixMark c 2

theorem RadixMark.exists_pow {mark : Char} {radix : Nat} (h : RadixMark mark radix) :
    ∃ k, radix = 2 ^ k ∧ 1 ≤ k ∧ k ≤ 4 := by
  cases h with
  | hexadecimal => exact ⟨4, rfl, by decide, by decide⟩
  | octal => exact ⟨3, rfl, by decide, by decide⟩
  | binary => exact ⟨1, rfl, by decide, by decide⟩

/-- The integer that digits denote, the first of which counts most. -/
def integer (radix : Nat) (values : List Nat) : Nat := Nat.ofDigits radix values.reverse

section

variable {radix : Nat} {front behind values : List Nat} {value : Nat}

theorem integer_nil (radix : Nat) : integer radix [] = 0 := rfl

theorem integer_concat (radix : Nat) (values : List Nat) (value : Nat) :
    integer radix (values ++ [value]) = integer radix values * radix + value := by
  rw [integer, List.reverse_append, List.reverse_singleton, List.singleton_append,
    Nat.ofDigits_cons, integer]
  ring

theorem integer_append (radix : Nat) (front behind : List Nat) :
    integer radix (front ++ behind) =
      integer radix front * radix ^ behind.length + integer radix behind := by
  rw [integer, List.reverse_append, Nat.ofDigits_append, List.length_reverse, integer, integer]
  ring

theorem integer_lt (hradix : 1 < radix) (h : ∀ value ∈ values, value < radix) :
    integer radix values < radix ^ values.length := by
  have hlt := Nat.ofDigits_lt_base_pow_length (l := values.reverse) hradix
    fun value hvalue => h value (List.mem_reverse.1 hvalue)
  rwa [List.length_reverse] at hlt

theorem integer_le_append (hradix : 0 < radix) (front behind : List Nat) :
    integer radix front ≤ integer radix (front ++ behind) := by
  rw [integer_append]
  exact Nat.le_add_right_of_le (Nat.le_mul_of_pos_right _ (Nat.pow_pos hradix))

/-- Digits denote zero if there is none but zero among them. -/
theorem integer_eq_zero_iff (hradix : 0 < radix) (values : List Nat) :
    integer radix values = 0 ↔ ∀ value ∈ values, value = 0 := by
  constructor
  · intro h value hvalue
    exact Nat.digits_zero_of_eq_zero hradix.ne' h value (List.mem_reverse.2 hvalue)
  · intro h
    rw [integer, List.eq_replicate_of_mem fun value hvalue => h value (List.mem_reverse.1 hvalue),
      Nat.ofDigits_replicate_zero]

end

namespace Rank

/-! ## Accumulated digits -/

/-- The magnitude with one more digit behind it, rounded. -/
def appendDigit (radix rank value : Nat) : Nat := nearest (units rank * radix + value * one) 1

/-- The magnitude that digits are accumulated to. -/
def accumulated (radix : Nat) (values : List Nat) : Nat := values.foldl (appendDigit radix) 0

theorem accumulated_append (radix : Nat) (front behind : List Nat) :
    accumulated radix (front ++ behind) =
      behind.foldl (appendDigit radix) (accumulated radix front) := by
  rw [accumulated, List.foldl_append, accumulated]

theorem accumulated_concat (radix : Nat) (values : List Nat) (value : Nat) :
    accumulated radix (values ++ [value]) =
      appendDigit radix (accumulated radix values) value := by
  rw [accumulated_append, List.foldl_cons, List.foldl_nil]

/-- Up to `2 ^ 53` whole numbers need no rounding. -/
theorem units_nearest_of_le {n : Nat} (h : n ≤ 2 ^ 53) : units (nearest (n * one) 1) = n * one := by
  obtain ⟨rank, -, hrank⟩ := exists_units_eq n h
  have hnearest := nearest_units Nat.one_pos rank
  rw [Nat.mul_one, hrank] at hnearest
  rw [hnearest, hrank]

/-- A magnitude times a power of two is a magnitude, however great. -/
theorem units_nearest_mul_two_pow (rank k : Nat) :
    units (nearest (units rank * 2 ^ k) 1) = units rank * 2 ^ k := by
  obtain ⟨significand, scale, hlt, hunits⟩ :
      ∃ significand scale, significand < 2 ^ 53 ∧ units rank = significand * 2 ^ scale := by
    have hcut := units_floor (units rank)
    rw [floor_units, Nat.shiftLeft_eq] at hcut
    exact ⟨_, _, (significand_bounds (units rank)).1, hcut⟩
  have hshifted := units_floor_mul_pow hlt (scale + k)
  rw [Nat.pow_add, ← Nat.mul_assoc, ← hunits] at hshifted
  rw [← hshifted, ← Nat.mul_one (units (floor _)), nearest_units Nat.one_pos, Nat.mul_one]

/-- A digit behind an integer that was not rounded. -/
theorem appendDigit_of_exact {radix rank n : Nat} (h : units rank = n * one) (value : Nat) :
    appendDigit radix rank value = nearest ((n * radix + value) * one) 1 := by
  rw [appendDigit, h]
  congr 1
  ring

/-- Up to `2 ^ 53` digits are accumulated to the integer that they denote. -/
theorem units_accumulated {radix : Nat} (hradix : 0 < radix) {values : List Nat}
    (h : integer radix values ≤ 2 ^ 53) :
    units (accumulated radix values) = integer radix values * one := by
  induction values using List.reverseRecOn with
  | nil =>
    have hzero : units 0 = 0 := rfl
    rw [accumulated, List.foldl_nil, integer_nil, hzero, Nat.zero_mul]
  | append_singleton values value ih =>
    have hfront := ih (le_trans (integer_le_append hradix values [value]) h)
    rw [accumulated_concat, appendDigit_of_exact hfront, ← integer_concat, units_nearest_of_le h]

/-- From `2 ^ 53` on a digit is less than half a step, so it is taken for a zero. -/
theorem appendDigit_of_firstEven_le {k rank value : Nat} (h : firstEven ≤ rank)
    (hvalue : value < 2 ^ k) : appendDigit (2 ^ k) rank value = rank + k * binade := by
  obtain ⟨n, hn⟩ : ∃ n, units rank = n * one := ⟨_, units_of_firstEven_le h⟩
  have hlarge : 2 ^ 53 ≤ n := by
    apply Nat.le_of_mul_le_mul_right _ one_pos
    rw [← hn, ← units_firstEven]
    exact units_le_units_iff.2 h
  have hexact : nearest (n * one) 1 = rank := by
    rw [← hn, ← Nat.mul_one (units rank), nearest_units Nat.one_pos]
  rw [appendDigit_of_exact hn,
    nearest_append hlarge hvalue fun hhalf => absurd hhalf (not_halfway_of_units hn), hexact]

theorem foldl_appendDigit {k rank : Nat} (h : firstEven ≤ rank) {values : List Nat}
    (hvalues : ∀ value ∈ values, value < 2 ^ k) :
    values.foldl (appendDigit (2 ^ k)) rank = rank + k * values.length * binade := by
  induction values generalizing rank with
  | nil => rw [List.length_nil, Nat.mul_zero, Nat.zero_mul]; rfl
  | cons value values ih =>
    obtain ⟨hvalue, hrest⟩ := List.forall_mem_cons.1 hvalues
    rw [List.foldl_cons, appendDigit_of_firstEven_le h hvalue,
      ih (Nat.le_add_right_of_le h) hrest, List.length_cons]
    ring

/-! ## Where rounding begins -/

/-- The digits up to the first place where they denote at least `2 ^ 53`, and those behind it. -/
structure Cut (radix : Nat) (values front behind : List Nat) : Prop where
  eq_append : values = front ++ behind
  long : 2 ^ 53 ≤ integer radix front
  first : ∀ other, other <+: front → 2 ^ 53 ≤ integer radix other → other = front
  /-- Up to that place the digits are accumulated with one rounding. -/
  accumulated_eq : accumulated radix front = nearest (integer radix front * one) 1

theorem exists_cut {radix : Nat} (hradix : 0 < radix) {values : List Nat}
    (h : 2 ^ 53 ≤ integer radix values) : ∃ front behind, Cut radix values front behind := by
  induction values using List.reverseRecOn with
  | nil =>
    rw [integer_nil] at h
    exact absurd h (by decide)
  | append_singleton values value ih =>
    by_cases hvalues : 2 ^ 53 ≤ integer radix values
    · obtain ⟨front, behind, hcut⟩ := ih hvalues
      exact ⟨front, behind ++ [value], { hcut with
        eq_append := by rw [hcut.eq_append, List.append_assoc] }⟩
    · refine ⟨values ++ [value], [], (List.append_nil _).symm, h, fun other hother hlong => ?_, ?_⟩
      · -- A shorter text of digits denotes no more than these digits without the last one.
        rcases List.prefix_concat_iff.1 hother with heq | ⟨rest, hrest⟩
        · exact heq
        · have hle := integer_le_append hradix other rest
          rw [hrest] at hle
          omega
      · rw [accumulated_concat, appendDigit_of_exact (units_accumulated hradix (by omega)),
          ← integer_concat]

namespace Cut

variable {k : Nat} {values front behind : List Nat}

/-- The digits behind the place are taken for zeros. -/
theorem accumulated_values (h : Cut (2 ^ k) values front behind)
    (hvalues : ∀ value ∈ values, value < 2 ^ k) :
    accumulated (2 ^ k) values =
      nearest (integer (2 ^ k) front * one) 1 + k * behind.length * binade := by
  have hfirst : firstEven ≤ nearest (integer (2 ^ k) front * one) 1 := by
    apply le_nearest Nat.one_pos
    rw [units_firstEven, Nat.mul_one]
    exact Nat.mul_le_mul_right _ h.long
  rw [h.eq_append] at hvalues ⊢
  rw [accumulated_append, h.accumulated_eq,
    foldl_appendDigit hfirst (List.forall_mem_append.1 hvalues).2]

theorem integer_values (h : Cut (2 ^ k) values front behind) :
    integer (2 ^ k) values =
      integer (2 ^ k) front * 2 ^ (k * behind.length) + integer (2 ^ k) behind := by
  rw [h.eq_append, integer_append, Nat.pow_mul]

theorem integer_behind_lt (h : Cut (2 ^ k) values front behind) (hk : 1 ≤ k)
    (hvalues : ∀ value ∈ values, value < 2 ^ k) :
    integer (2 ^ k) behind < 2 ^ (k * behind.length) := by
  rw [h.eq_append] at hvalues
  rw [Nat.pow_mul]
  exact integer_lt (Nat.one_lt_two_pow (by omega)) (List.forall_mem_append.1 hvalues).2

/-- The digits up to another place where they denote that much run past the first one. -/
theorem exists_middle {radix : Nat} (h : Cut radix values front behind) {other rest : List Nat}
    (hsplit : values = other ++ rest) (hlong : 2 ^ 53 ≤ integer radix other) :
    ∃ middle, other = front ++ middle ∧ behind = middle ++ rest := by
  have hfront : front <+: other ++ rest := ⟨behind, by rw [← h.eq_append, hsplit]⟩
  have hprefix : front <+: other := by
    rcases List.prefix_or_prefix_of_prefix hfront (List.prefix_append other rest) with hle | hge
    · exact hle
    · rw [h.first other hge hlong]
  obtain ⟨middle, rfl⟩ := hprefix
  refine ⟨middle, rfl, ?_⟩
  rw [h.eq_append, List.append_assoc] at hsplit
  exact List.append_cancel_left hsplit

end Cut

/-! ## Ties -/

/-- Digits up to some place denote an integer halfway between two magnitudes, and the digits behind
it are not all zero, so the integer that all of them denote lies past the middle. -/
def BreaksTie (radix : Nat) (values : List Nat) : Prop :=
  ∃ front behind, values = front ++ behind ∧ Halfway (integer radix front) ∧
    ∃ value ∈ behind, value ≠ 0

section

variable {k : Nat} {values front behind : List Nat}

/-- Digits that denote an integer halfway between two magnitudes do so from the place on where
rounding begins, with nothing but zeros since. -/
theorem Cut.exists_zeros (h : Cut (2 ^ k) values front behind) (hk : 1 ≤ k)
    (hvalues : ∀ value ∈ values, value < 2 ^ k) {other rest : List Nat}
    (hsplit : values = other ++ rest) (hhalf : Halfway (integer (2 ^ k) other)) :
    ∃ middle, other = front ++ middle ∧ behind = middle ++ rest ∧ integer (2 ^ k) middle = 0 ∧
      Halfway (integer (2 ^ k) front) := by
  obtain ⟨middle, rfl, rfl⟩ := h.exists_middle hsplit (lt_of_halfway hhalf).le
  rw [h.eq_append] at hvalues
  have hlt : integer (2 ^ k) middle < 2 ^ (k * middle.length) := by
    rw [Nat.pow_mul]
    exact integer_lt (Nat.one_lt_two_pow (by omega)) fun value hvalue => hvalues value (by simp [hvalue])
  rw [integer_append, ← Nat.pow_mul, halfway_append_iff h.long hlt] at hhalf
  exact ⟨middle, rfl, rfl, hhalf.2, hhalf.1⟩

theorem Cut.breaksTie_iff (h : Cut (2 ^ k) values front behind) (hk : 1 ≤ k)
    (hvalues : ∀ value ∈ values, value < 2 ^ k) :
    BreaksTie (2 ^ k) values ↔
      Halfway (integer (2 ^ k) front) ∧ integer (2 ^ k) behind ≠ 0 := by
  have hzero := integer_eq_zero_iff (Nat.two_pow_pos k)
  constructor
  · rintro ⟨other, rest, hsplit, hhalf, value, hvalue, hne⟩
    obtain ⟨middle, rfl, rfl, -, hfront⟩ := h.exists_zeros hk hvalues hsplit hhalf
    refine ⟨hfront, fun hall => hne ((hzero _).1 hall value ?_)⟩
    exact List.mem_append_right middle hvalue
  · rintro ⟨hhalf, hne⟩
    rw [ne_eq, hzero] at hne
    push Not at hne
    exact ⟨front, behind, h.eq_append, hhalf, hne⟩

/-- Digits that break no tie are accumulated to the nearest magnitude. -/
theorem nearest_eq_accumulated (hk : 1 ≤ k) (hvalues : ∀ value ∈ values, value < 2 ^ k)
    (h : ¬ BreaksTie (2 ^ k) values) :
    nearest (integer (2 ^ k) values * one) 1 = accumulated (2 ^ k) values := by
  by_cases hlong : 2 ^ 53 ≤ integer (2 ^ k) values
  · obtain ⟨front, behind, hcut⟩ := exists_cut (Nat.two_pow_pos k) hlong
    rw [hcut.breaksTie_iff hk hvalues, not_and_not_right] at h
    rw [hcut.integer_values, nearest_append hcut.long (hcut.integer_behind_lt hk hvalues) h,
      hcut.accumulated_values hvalues]
  · have hexact : units (accumulated (2 ^ k) values) = integer (2 ^ k) values * one :=
      units_accumulated (Nat.two_pow_pos k) (by omega)
    rw [← hexact, ← Nat.mul_one (units _), nearest_units Nat.one_pos]

/-- Digits that break a tie are accumulated to the magnitude below the nearest one. -/
theorem nearest_eq_accumulated_succ (hk : 1 ≤ k) (hvalues : ∀ value ∈ values, value < 2 ^ k)
    (h : BreaksTie (2 ^ k) values) :
    nearest (integer (2 ^ k) values * one) 1 = accumulated (2 ^ k) values + 1 ∧
      accumulated (2 ^ k) values = floor (integer (2 ^ k) values * one) := by
  obtain ⟨front, behind, hcut⟩ : ∃ front behind, Cut (2 ^ k) values front behind := by
    obtain ⟨other, rest, rfl, hhalf, -⟩ := h
    exact exists_cut (Nat.two_pow_pos k)
      ((lt_of_halfway hhalf).le.trans (integer_le_append (Nat.two_pow_pos k) other rest))
  obtain ⟨hhalf, hne⟩ := (hcut.breaksTie_iff hk hvalues).1 h
  have hlt := hcut.integer_behind_lt hk hvalues
  obtain ⟨low, high, hneighbours⟩ := exists_neighbours hcut.long
  rw [hcut.integer_values, nearest_append_of_halfway hhalf hlt hne, hcut.accumulated_values hvalues,
    hneighbours.floor_append hcut.long hlt, nearest_of_halfway hhalf]
  exact ⟨rfl, rfl⟩

/-- Behind a place where the digits denote an integer halfway between two magnitudes all of them are
taken for zeros. -/
theorem accumulated_of_halfway (hk : 1 ≤ k) (hvalues : ∀ value ∈ values, value < 2 ^ k)
    {other rest : List Nat} (hsplit : values = other ++ rest)
    (hhalf : Halfway (integer (2 ^ k) other)) :
    nearest (integer (2 ^ k) other * (2 ^ k) ^ rest.length * one) 1 =
      accumulated (2 ^ k) values := by
  have hle := integer_le_append (Nat.two_pow_pos k) other rest
  rw [← hsplit] at hle
  obtain ⟨front, behind, hcut⟩ :=
    exists_cut (Nat.two_pow_pos k) ((lt_of_halfway hhalf).le.trans hle)
  obtain ⟨middle, rfl, rfl, hzero, -⟩ := hcut.exists_zeros hk hvalues hsplit hhalf
  have hzeros : integer (2 ^ k) (front ++ middle) * (2 ^ k) ^ rest.length =
      integer (2 ^ k) front * 2 ^ (k * (middle ++ rest).length) + 0 := by
    rw [integer_append, hzero, List.length_append, Nat.pow_mul]
    ring
  rw [hzeros, nearest_append hcut.long (Nat.two_pow_pos _) fun _ => rfl,
    hcut.accumulated_values hvalues]

end

end Rank

namespace Number

/-! ## Numbers -/

/-- The number nearest to a whole number. -/
theorem isNearest_natCast_iff (n : Nat) (negative : Bool) (m : Number) :
    m.IsNearest negative n ↔ m = ofRank negative (Rank.nearest (n * Rank.one) 1) := by
  constructor
  · rintro ⟨rank, hrank, rfl⟩
    rw [hrank.unique (Rank.nearestTo_natCast n)]
  · rintro rfl
    exact ⟨_, Rank.nearestTo_natCast n, rfl⟩

theorem ofRank_of_lt {rank : Nat} (h : rank < Rank.count) (negative : Bool) :
    ofRank negative rank = .finite negative ⟨rank, h⟩ := dif_pos h

theorem ofRank_of_le {rank : Nat} (h : Rank.count ≤ rank) (negative : Bool) :
    ofRank negative rank = .infinite negative := dif_neg (Nat.not_lt.2 h)

theorem ofNat_eq (n : Nat) : ofNat n = ofRank false (Rank.nearest (n * Rank.one) 1) := rfl

/-- Small whole numbers are numbers. -/
theorem exists_ofNat_eq {n : Nat} (h : n ≤ 2 ^ 53) :
    ∃ rank : Fin Rank.count, ofNat n = .finite false rank ∧ Rank.units rank = n * Rank.one := by
  have hunits := Rank.units_nearest_of_le h
  have hle : Rank.nearest (n * Rank.one) 1 ≤ Rank.firstEven := by
    rw [← Rank.units_le_units_iff, hunits, Rank.units_firstEven]
    exact Nat.mul_le_mul_right _ h
  have hlt : Rank.nearest (n * Rank.one) 1 < Rank.count := Nat.lt_of_le_of_lt hle (by decide)
  exact ⟨⟨_, hlt⟩, by rw [ofNat_eq, ofRank_of_lt hlt], hunits⟩

/-- Multiplying by a power of two shifts the magnitude. -/
theorem mul_two_pow (rank : Nat) {k : Nat} (hk : k ≤ 53) :
    (ofRank false rank).mul (ofNat (2 ^ k)) =
      ofRank false (Rank.nearest (Rank.units rank * 2 ^ k) 1) := by
  obtain ⟨power, hpower, hunits⟩ := exists_ofNat_eq (Nat.pow_le_pow_right (by decide) hk)
  rw [hpower]
  rcases Nat.lt_or_ge rank Rank.count with hlt | hge
  · have hproduct := Rank.nearest_mul_right Rank.one_pos (Rank.units rank * 2 ^ k) 1
    rw [Nat.one_mul, Nat.mul_assoc, ← hunits] at hproduct
    rw [ofRank_of_lt hlt, ← hproduct]
    rfl
  · have hpos : power.val ≠ 0 := by
      rw [ne_eq, ← Rank.units_eq_zero_iff, hunits]
      exact (Nat.mul_pos (Nat.two_pow_pos k) Rank.one_pos).ne'
    have hinfinite : Rank.count ≤ Rank.nearest (Rank.units rank * 2 ^ k) 1 := by
      refine hge.trans (Rank.le_nearest Nat.one_pos ?_)
      exact Nat.mul_le_mul_left _ (Nat.two_pow_pos k)
    rw [ofRank_of_le hge, ofRank_of_le hinfinite, mul, if_neg hpos]
    rfl

/-- Adding a small whole number to a magnitude. -/
theorem add_ofNat (rank : Nat) {n : Nat} (hn : n ≤ 2 ^ 53) :
    (ofRank false rank).add (ofNat n) =
      ofRank false (Rank.nearest (Rank.units rank + n * Rank.one) 1) := by
  obtain ⟨whole, hwhole, hunits⟩ := exists_ofNat_eq hn
  rw [hwhole, ← hunits]
  rcases Nat.lt_or_ge rank Rank.count with hlt | hge
  · have hsum : ((Rank.units rank : Int) + Rank.units whole).natAbs =
        Rank.units rank + Rank.units whole := by omega
    have hsign : ¬ (Rank.units rank : Int) + Rank.units whole < 0 := by omega
    rw [ofRank_of_lt hlt]
    simp only [add, Bool.false_eq_true, if_false, Bool.and_self, hsum, hsign, decide_false]
    split
    case isTrue hzero =>
      have hnone : Rank.units rank + Rank.units whole = 0 := by omega
      rw [hnone]
      rfl
    case isFalse => rfl
  · have hinfinite : Rank.count ≤ Rank.nearest (Rank.units rank + Rank.units whole) 1 := by
      refine hge.trans (Rank.le_nearest Nat.one_pos ?_)
      omega
    rw [ofRank_of_le hge, ofRank_of_le hinfinite]
    rfl

/-- One more digit of a radix that is a power of two. -/
theorem mul_add_eq (rank : Nat) {k value : Nat} (hk : k ≤ 53) (hvalue : value < 2 ^ k) :
    ((ofRank false rank).mul (ofNat (2 ^ k))).add (ofNat value) =
      ofRank false (Rank.appendDigit (2 ^ k) rank value) := by
  have hle : value ≤ 2 ^ 53 := hvalue.le.trans (Nat.pow_le_pow_right (by decide) hk)
  rw [mul_two_pow rank hk, add_ofNat _ hle, Rank.units_nearest_mul_two_pow, Rank.appendDigit]

/-! ## Digits -/

theorem toNat_lt_of_isDigit {radix value : Nat} (hradix : radix ≤ 16) {c : Char}
    (h : IsDigit radix c value) : c.toNat < 128 := by
  have hascii : ∀ value : Fin 16,
      value.val.digitChar.toNat < 128 ∧ value.val.digitChar.toUpper.toNat < 128 := by decide
  obtain ⟨hlt, rfl | rfl⟩ := h
  · exact (hascii ⟨value, by omega⟩).1
  · exact (hascii ⟨value, by omega⟩).2

theorem toNat_lt_of_digit? {radix value : Nat} {c : Char} (h : digit? radix c = some value) :
    c.toNat < 128 := by
  by_contra hge
  have hdigit : c.isDigit = false := by
    rw [Bool.eq_false_iff]
    intro hdigit
    have hrange : 48 ≤ c.toNat ∧ c.toNat ≤ 57 := Char.isDigit_iff_toNat.1 hdigit
    omega
  have hlower : (97 ≤ c.toNat && c.toNat ≤ 122) = false := by simp; omega
  have hupper : (65 ≤ c.toNat && c.toNat ≤ 90) = false := by simp; omega
  simp [digit?, hdigit, hlower, hupper] at h

/-- The digits of a radix are the characters that have a value in it. -/
theorem digit?_eq_some_iff {radix : Nat} (h : radix ≤ 16) {c : Char} {value : Nat} :
    digit? radix c = some value ↔ IsDigit radix c value := by
  have hascii : ∀ n : Fin 128, ∀ value : Fin 16, digit? 16 (Char.ofNat n) = some value.val ↔
      IsDigit 16 (Char.ofNat n) value := by decide +kernel
  have hsixteen : digit? 16 c = some value ↔ IsDigit 16 c value := by
    constructor
    · intro hvalue
      have hc := hascii ⟨c.toNat, toNat_lt_of_digit? hvalue⟩
        ⟨value, of_decide_eq_true (Option.filter_eq_some_iff.1 hvalue).2⟩
      rw [Char.ofNat_toNat] at hc
      exact hc.1 hvalue
    · intro hvalue
      have hc := hascii ⟨c.toNat, toNat_lt_of_isDigit (Nat.le_refl 16) hvalue⟩ ⟨value, hvalue.1⟩
      rw [Char.ofNat_toNat] at hc
      exact hc.2 hvalue
  have hradix : digit? radix c = some value ↔ digit? 16 c = some value ∧ value < radix := by
    simp only [digit?, Option.filter_eq_some_iff, decide_eq_true_eq]
    constructor
    · rintro ⟨hvalue, hlt⟩
      exact ⟨⟨hvalue, by omega⟩, hlt⟩
    · rintro ⟨⟨hvalue, -⟩, hlt⟩
      exact ⟨hvalue, hlt⟩
  rw [hradix, hsixteen, IsDigit, IsDigit]
  constructor
  · rintro ⟨⟨-, hc⟩, hlt⟩
    exact ⟨hlt, hc⟩
  · rintro ⟨hlt, hc⟩
    exact ⟨⟨by omega, hc⟩, hlt⟩

theorem isBlank_of_isDigit {radix value : Nat} (hradix : radix ≤ 16) {c : Char}
    (h : IsDigit radix c value) : Text.isBlank c = false := by
  have hall : ∀ value : Fin 16, Text.isBlank value.val.digitChar = false ∧
      Text.isBlank value.val.digitChar.toUpper = false := by decide
  obtain ⟨hlt, rfl | rfl⟩ := h
  · exact (hall ⟨value, by omega⟩).1
  · exact (hall ⟨value, by omega⟩).2

/-- Digits are accumulated in ranks. -/
theorem ofDigits_eq {k : Nat} (hk : k ≤ 4) {digits : List Char} {values : List Nat}
    (h : List.Forall₂ (IsDigit (2 ^ k)) digits values) :
    ofDigits (2 ^ k) digits = ofRank false (Rank.accumulated (2 ^ k) values) := by
  have hrun : ∀ rank, digits.foldlM (fun (acc : Number) c =>
      (digit? (2 ^ k) c).map fun d => (acc.mul (ofNat (2 ^ k))).add (ofNat d)) (ofRank false rank) =
        some (ofRank false (values.foldl (Rank.appendDigit (2 ^ k)) rank)) := by
    induction h with
    | nil => exact fun _ => rfl
    | @cons c value digits values hc hrest ih =>
      intro rank
      have hdigit : digit? (2 ^ k) c = some value :=
        (digit?_eq_some_iff (Nat.pow_le_pow_right (n := 2) (by decide) hk)).2 hc
      rw [List.foldlM_cons, hdigit, Option.map_some, mul_add_eq rank (by omega) hc.1]
      exact ih _
  rw [ofDigits]
  exact congrArg (Option.getD · nan) (hrun 0)

/-! ## Texts -/

/-- A text announces a radix behind a zero. -/
theorem radixLiteral?_eq_some_iff {text digits : List Char} {radix : Nat} :
    radixLiteral? text = some (radix, digits) ↔
      ∃ mark, RadixMark mark radix ∧ text = '0' :: mark :: digits := by
  constructor
  · intro h
    unfold radixLiteral? at h
    split at h
    case h_1 mark rest =>
      simp only [Bool.or_eq_true, decide_eq_true_eq] at h
      refine ⟨mark, ?_⟩
      split at h
      case isTrue hmark =>
        cases h
        exact ⟨.hexadecimal hmark, rfl⟩
      case isFalse =>
      split at h
      case isTrue hmark =>
        cases h
        exact ⟨.octal hmark, rfl⟩
      case isFalse =>
      split at h
      case isTrue hmark =>
        cases h
        exact ⟨.binary hmark, rfl⟩
      case isFalse => cases h
    case h_2 => cases h
  · rintro ⟨mark, hmark, rfl⟩
    cases hmark with
    | hexadecimal h => rcases h with rfl | rfl <;> rfl
    | octal h => rcases h with rfl | rfl <;> rfl
    | binary h => rcases h with rfl | rfl <;> rfl

/-- A radix literal stands for what its digits are accumulated to. -/
theorem readTrimmed_radixLiteral {mark : Char} {radix : Nat} (hmark : RadixMark mark radix)
    {digits : List Char} (hne : digits ≠ []) :
    readTrimmed ('0' :: mark :: digits) = ofDigits radix digits := by
  have hliteral := radixLiteral?_eq_some_iff.2 ⟨mark, hmark, (rfl : _ = '0' :: mark :: digits)⟩
  have hinfinity : ∀ first rest, first ≠ '0' → '0' :: mark :: digits ≠ first :: rest := by
    intro first rest hfirst heq
    exact hfirst (List.cons.inj heq).1.symm
  simp only [readTrimmed, hliteral, if_neg hne]
  rw [if_neg (List.cons_ne_nil _ _), if_neg (by simp [hinfinity]), if_neg (by simp [hinfinity])]

theorem forall_lt_of_digits {radix : Nat} {digits : List Char} {values : List Nat}
    (h : List.Forall₂ (IsDigit radix) digits values) : ∀ value ∈ values, value < radix := by
  induction h with
  | nil => exact List.forall_mem_nil _
  | cons hc _ ih => exact List.forall_mem_cons.2 ⟨hc.1, ih⟩

theorem forall_not_blank_of_digits {radix : Nat} (hradix : radix ≤ 16) {digits : List Char}
    {values : List Nat} (h : List.Forall₂ (IsDigit radix) digits values) :
    ∀ c ∈ digits, Text.isBlank c = false := by
  induction h with
  | nil => exact List.forall_mem_nil _
  | cons hc _ ih => exact List.forall_mem_cons.2 ⟨isBlank_of_isDigit hradix hc, ih⟩

theorem read_of_digits {mark : Char} {radix : Nat} (hmark : RadixMark mark radix)
    {digits : List Char} {values : List Nat} (hne : digits ≠ [])
    (hdigits : List.Forall₂ (IsDigit radix) digits values) :
    read ('0' :: mark :: digits) = ofRank false (Rank.accumulated radix values) := by
  obtain ⟨k, rfl, -, hk⟩ := hmark.exists_pow
  have hradix : 2 ^ k ≤ 16 := Nat.pow_le_pow_right (n := 2) (by decide) hk
  have hblank := forall_not_blank_of_digits hradix hdigits
  have htrim : Text.trim ('0' :: mark :: digits) = '0' :: mark :: digits := by
    refine Text.trim_eq_self (fun c hc => by cases hc; decide) fun c hc => hblank c ?_
    rw [List.getLast?_cons_cons, List.getLast?_cons_of_ne_nil hne] at hc
    exact List.mem_of_getLast? hc
  rw [read, htrim, readTrimmed_radixLiteral hmark hne, ofDigits_eq hk hdigits]

/-- Magnitudes from `2 ^ 1024` on are those of infinity. -/
theorem count_le_floor_iff (n : Nat) : Rank.count ≤ Rank.floor (n * Rank.one) ↔ 2 ^ 1024 ≤ n := by
  have hcount : Rank.units Rank.count = 2 ^ 1024 * Rank.one := by decide +kernel
  rw [Rank.le_floor_iff, hcount, Nat.mul_le_mul_right_iff Rank.one_pos]

theorem ofRank_eq_ofRank_succ_iff (negative : Bool) (rank : Nat) :
    ofRank negative rank = ofRank negative (rank + 1) ↔ Rank.count ≤ rank := by
  constructor
  · intro h
    by_contra hlt
    rw [ofRank_of_lt (Nat.not_le.1 hlt), eq_comm, ofRank_eq_finite_iff] at h
    exact absurd h.2 (Nat.succ_ne_self rank)
  · intro h
    rw [ofRank_of_le h, ofRank_of_le (Nat.le_succ_of_le h)]

/-- The number for which a radix literal stands. It is the one nearest to the integer that the
digits denote, except below `2 ^ 1024` where digits break a tie. In any case, from a place on where
the digits denote an integer halfway between two numbers, all of them are read as zeros. -/
theorem read_radixLiteral {mark : Char} {radix : Nat} (hmark : RadixMark mark radix)
    {digits : List Char} {values : List Nat} (hne : digits ≠ [])
    (hdigits : List.Forall₂ (IsDigit radix) digits values) :
    ((read ('0' :: mark :: digits)).IsNearest false (integer radix values) ↔
        ¬ (integer radix values < 2 ^ 1024 ∧ Rank.BreaksTie radix values)) ∧
      ∀ front behind, values = front ++ behind → Rank.Halfway (integer radix front) →
        (read ('0' :: mark :: digits)).IsNearest false
          ((integer radix front * radix ^ behind.length : Nat) : ℚ) := by
  have hread := read_of_digits hmark hne hdigits
  have hvalues := forall_lt_of_digits hdigits
  obtain ⟨k, rfl, hk, -⟩ := hmark.exists_pow
  rw [hread]
  constructor
  · rw [isNearest_natCast_iff]
    by_cases htie : Rank.BreaksTie (2 ^ k) values
    · obtain ⟨hnearest, hfloor⟩ := Rank.nearest_eq_accumulated_succ hk hvalues htie
      rw [hnearest, ofRank_eq_ofRank_succ_iff, hfloor, count_le_floor_iff, and_iff_left htie,
        Nat.not_lt]
    · simp only [Rank.nearest_eq_accumulated hk hvalues htie, htie, and_false, not_false_iff]
  · intro front behind hsplit hhalf
    rw [isNearest_natCast_iff, Rank.accumulated_of_halfway hk hvalues hsplit hhalf]

/-- `2 ^ 57 + 17` in hexadecimal digits. The digits but for the last one denote `2 ^ 53 + 1`, which
is halfway between `2 ^ 53` and the next number. So the last digit does not count, and what is read
is `2 ^ 57` and not `2 ^ 57 + 32`, which is nearer. -/
theorem read_radixLiteral_tie :
    let digits := "200000000000011".toList
    let values := [2, 0, 0, 0, 0, 0, 0, 0, 0, 0, 0, 0, 0, 1, 1]
    RadixMark 'x' 16 ∧ digits ≠ [] ∧ List.Forall₂ (IsDigit 16) digits values ∧
      integer 16 values = 2 ^ 57 + 17 ∧ Rank.BreaksTie 16 values ∧
      read "0x200000000000011".toList = ofNat (2 ^ 57) ∧
      ¬ (read "0x200000000000011".toList).IsNearest false (integer 16 values) := by
  intro digits values
  have hmark : RadixMark 'x' 16 := .hexadecimal (.inl rfl)
  have hne : digits ≠ [] := by decide
  have hdigits : List.Forall₂ (IsDigit 16) digits values := by decide
  have hinteger : integer 16 values = 2 ^ 57 + 17 := by decide
  have htie : Rank.BreaksTie 16 values := by
    refine ⟨[2, 0, 0, 0, 0, 0, 0, 0, 0, 0, 0, 0, 0, 1], [1], rfl, ?_, 1, by decide, by decide⟩
    exact (Rank.halfway_iff _).2 (by decide +kernel)
  obtain ⟨hnearest, hzeros⟩ := read_radixLiteral hmark hne hdigits
  refine ⟨hmark, hne, hdigits, hinteger, htie, by decide +kernel, fun h => ?_⟩
  have hsmall : integer 16 values < 2 ^ 1024 := by
    rw [← Nat.not_le, ← count_le_floor_iff]
    decide +kernel
  exact hnearest.1 h ⟨hsmall, htie⟩

/-- Radix literals do not always stand for the number nearest to the integer that their digits
denote. -/
theorem not_forall_read_radixLiteral_isNearest :
    ¬ ∀ mark radix digits values, RadixMark mark radix → digits ≠ [] →
      List.Forall₂ (IsDigit radix) digits values →
        (read ('0' :: mark :: digits)).IsNearest false (integer radix values) := by
  intro h
  have hread := h 'x' 16 "200000000000011".toList [2, 0, 0, 0, 0, 0, 0, 0, 0, 0, 0, 0, 0, 1, 1]
    (.hexadecimal (.inl rfl)) (by decide) (by decide)
  rw [isNearest_natCast_iff] at hread
  exact absurd hread (by decide +kernel)

end Number

end LooseRecords
