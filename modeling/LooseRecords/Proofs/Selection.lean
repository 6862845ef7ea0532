import LooseRecords.Selection
import Mathlib.Data.List.Basic

/-!
# Positions of a selection

Which positions a selection names, and in which order. The spans of a selection are united one by
one into a list of spans that lie apart, so every position comes once and in its place:
`Selection.mem_positions_iff` and `Selection.pairwise_positions`.
-/

namespace LooseRecords

namespace Selection

namespace Span

theorem contains_iff (s : Span) (i : Nat) : s.contains i = true ↔ s.first ≤ i ∧ i ≤ s.last := by
  simp [contains]

theorem mem_positions (s : Span) (i : Nat) : i ∈ s.positions ↔ s.contains i = true := by
  rw [positions, List.mem_range'_1, contains_iff]
  omega

/-- Some span of a list contains the position. -/
def Covers (spans : List Span) (i : Nat) : Prop := ∃ s ∈ spans, s.contains i = true

/-- Spans that lie apart: none is without a position, and each ends before the next one begins. -/
structure Apart (spans : List Span) : Prop where
  proper : ∀ s ∈ spans, s.first ≤ s.last
  ascending : spans.Pairwise fun s t => s.last < t.first

theorem covers_cons (s : Span) (spans : List Span) (i : Nat) :
    Covers (s :: spans) i ↔ s.contains i = true ∨ Covers spans i := by
  simp [Covers]

theorem Apart.nil : Apart [] := ⟨by simp, .nil⟩

theorem apart_cons (s : Span) (spans : List Span) :
    Apart (s :: spans) ↔
      s.first ≤ s.last ∧ (∀ t ∈ spans, s.last < t.first) ∧ Apart spans := by
  constructor
  · rintro ⟨hproper, hasc⟩
    rw [List.pairwise_cons] at hasc
    exact ⟨hproper s (by simp), hasc.1, fun t ht => hproper t (by simp [ht]), hasc.2⟩
  · rintro ⟨hs, hlt, hproper, hasc⟩
    exact ⟨by simpa [hs] using hproper, List.pairwise_cons.2 ⟨hlt, hasc⟩⟩

/-! ## One span more -/

/-- A span united with spans that begin behind a bound begins behind it too. -/
theorem lt_first_of_mem_unite {bound : Nat} {s : Span} {spans : List Span}
    (hs : bound < s.first) (hspans : ∀ t ∈ spans, bound < t.first) :
    ∀ t ∈ s.unite spans, bound < t.first := by
  induction spans generalizing s with
  | nil => simpa [unite] using hs
  | cons u rest ih =>
    obtain ⟨hu, hrest⟩ := List.forall_mem_cons.1 hspans
    rw [unite]
    split
    · simpa [hs] using hspans
    · split
      · simpa [hu] using ih hs hrest
      · refine ih ?_ hrest
        show bound < min s.first u.first
        omega

/-- Spans that lie apart still do when one more is united with them. -/
theorem Apart.unite {s : Span} {spans : List Span} (hs : s.first ≤ s.last) (h : Apart spans) :
    Apart (s.unite spans) := by
  -- A span that meets the next one takes it in and goes on, so the induction is for every span.
  induction spans generalizing s with
  | nil => exact ⟨by simpa [Span.unite] using hs, by simp [Span.unite]⟩
  | cons t rest ih =>
    obtain ⟨ht, hlt, hrest⟩ := (apart_cons t rest).1 h
    rw [Span.unite]
    split
    case isTrue hfront =>
      refine (apart_cons _ _).2 ⟨hs, ?_, h⟩
      intro u hu
      rcases List.mem_cons.1 hu with rfl | hu
      · exact hfront
      · have := hlt u hu
        omega
    case isFalse =>
      split
      case isTrue hbehind =>
        exact (apart_cons _ _).2 ⟨ht, lt_first_of_mem_unite hbehind hlt, ih hs hrest⟩
      case isFalse =>
        refine ih ?_ hrest
        show min s.first t.first ≤ max s.last t.last
        omega

/-- Uniting a span with others adds its positions and no more: two spans that meet leave no gap
between them. -/
theorem covers_unite {s : Span} {spans : List Span} (hs : s.first ≤ s.last)
    (h : ∀ t ∈ spans, t.first ≤ t.last) (i : Nat) :
    Covers (s.unite spans) i ↔ s.contains i = true ∨ Covers spans i := by
  induction spans generalizing s with
  | nil => simp [unite, Covers]
  | cons t rest ih =>
    obtain ⟨ht, hrest⟩ := List.forall_mem_cons.1 h
    rw [unite]
    split
    · rw [covers_cons]
    · split
      · rw [covers_cons, ih hs hrest, covers_cons, or_left_comm]
      · have hproper : min s.first t.first ≤ max s.last t.last := by omega
        have hjoined : Span.contains ⟨min s.first t.first, max s.last t.last⟩ i = true ↔
            s.contains i = true ∨ t.contains i = true := by
          simp only [contains_iff]
          omega
        rw [ih hproper hrest, hjoined, covers_cons, or_assoc]

/-! ## All spans -/

theorem foldl_unite {parts : List Span} (hparts : ∀ s ∈ parts, s.first ≤ s.last)
    {apart : List Span} (h : Apart apart) :
    Apart (parts.foldl (fun apart s => s.unite apart) apart) ∧
      ∀ i, Covers (parts.foldl (fun apart s => s.unite apart) apart) i ↔
        Covers parts i ∨ Covers apart i := by
  induction parts generalizing apart with
  | nil => exact ⟨h, by simp [Covers]⟩
  | cons s parts ih =>
    obtain ⟨hs, hparts⟩ := List.forall_mem_cons.1 hparts
    obtain ⟨hapart, hcovers⟩ := ih hparts (h.unite hs)
    refine ⟨hapart, fun i => ?_⟩
    rw [List.foldl_cons, hcovers, covers_unite hs h.proper, covers_cons, or_left_comm, or_assoc]

theorem mem_flatMap_positions (spans : List Span) (i : Nat) :
    i ∈ spans.flatMap positions ↔ Covers spans i := by
  simp only [List.mem_flatMap, mem_positions, Covers]

theorem Apart.pairwise_positions {spans : List Span} (h : Apart spans) :
    (spans.flatMap positions).Pairwise (· < ·) := by
  rw [List.pairwise_flatMap]
  constructor
  · intro s _
    exact List.pairwise_lt_range' 1
  · refine h.ascending.imp ?_
    intro s t hlt i hi j hj
    rw [mem_positions, contains_iff] at hi hj
    omega

/-! ## Below a length -/

/-- What is left of a span below a length, and when something is. -/
theorem below?_eq_some_iff (length : Nat) (s part : Span) :
    s.below? length = some part ↔
      part = ⟨s.first, min s.last (length - 1)⟩ ∧
        s.first ≤ s.last ∧ s.first < length ∧ length ≤ greatest + 1 := by
  have hguard : (s.first ≤ min s.last (length - 1) && 0 < length && length ≤ greatest + 1) = true ↔
      s.first ≤ s.last ∧ s.first < length ∧ length ≤ greatest + 1 := by
    simp only [Bool.and_eq_true, decide_eq_true_eq]
    omega
  simp only [below?]
  split
  case isTrue h => simp [hguard.1 h, eq_comm]
  case isFalse h => simp [mt hguard.2 h]

theorem contains_cut (s : Span) {length : Nat} (h : 0 < length) (i : Nat) :
    contains ⟨s.first, min s.last (length - 1)⟩ i = true ↔ i < length ∧ s.contains i = true := by
  simp only [contains_iff]
  omega

end Span

/-! ## The positions of a selection -/

/-- The positions of a selection are those of spans that lie apart, and of no others than its own
spans below the length. -/
theorem exists_apart (selection : String) (length : Nat) :
    ∃ apart, positions selection length = apart.flatMap Span.positions ∧ Span.Apart apart ∧
      ∀ i, Span.Covers apart i ↔
        ∃ s ∈ spans selection, ∃ part, s.below? length = some part ∧ part.contains i = true := by
  have hproper : ∀ part ∈ (spans selection).filterMap (Span.below? length),
      part.first ≤ part.last := by
    intro part hpart
    obtain ⟨s, _, hs⟩ := List.mem_filterMap.1 hpart
    obtain ⟨rfl, hle, hlt, _⟩ := (Span.below?_eq_some_iff length s part).1 hs
    show s.first ≤ min s.last (length - 1)
    omega
  obtain ⟨hapart, hcovers⟩ := Span.foldl_unite hproper .nil
  refine ⟨_, rfl, hapart, fun i => ?_⟩
  rw [hcovers]
  constructor
  · rintro (⟨part, hpart, hi⟩ | ⟨part, hnil, _⟩)
    · obtain ⟨s, hs, hbelow⟩ := List.mem_filterMap.1 hpart
      exact ⟨s, hs, part, hbelow, hi⟩
    · cases hnil
  · rintro ⟨s, hs, part, hbelow, hi⟩
    exact .inl ⟨part, List.mem_filterMap.2 ⟨s, hs, hbelow⟩, hi⟩

/-- The positions of a selection come in ascending order, each of them once. -/
theorem pairwise_positions (selection : String) (length : Nat) :
    (positions selection length).Pairwise (· < ·) := by
  obtain ⟨apart, heq, hapart, _⟩ := exists_apart selection length
  rw [heq]
  exact hapart.pairwise_positions

/-- A position is selected exactly if it lies below the length and some span names it, unless the
length leaves positions without a name. -/
theorem mem_positions_iff (selection : String) (length i : Nat) :
    i ∈ positions selection length ↔
      i < length ∧ length ≤ greatest + 1 ∧ ∃ s ∈ spans selection, s.contains i = true := by
  obtain ⟨apart, heq, _, hcovers⟩ := exists_apart selection length
  rw [heq, Span.mem_flatMap_positions, hcovers]
  constructor
  · rintro ⟨s, hs, part, hbelow, hi⟩
    obtain ⟨rfl, hle, hlt, hlength⟩ := (Span.below?_eq_some_iff length s part).1 hbelow
    obtain ⟨hi, hcontains⟩ := (Span.contains_cut s (by omega) i).1 hi
    exact ⟨hi, hlength, s, hs, hcontains⟩
  · rintro ⟨hi, hlength, s, hs, hcontains⟩
    have hbounds := (Span.contains_iff s i).1 hcontains
    have hbelow := (Span.below?_eq_some_iff length s _).2
      ⟨rfl, by omega, by omega, hlength⟩
    exact ⟨s, hs, _, hbelow, (Span.contains_cut s (by omega) i).2 ⟨hi, hcontains⟩⟩

theorem lt_of_mem_positions {selection : String} {length i : Nat}
    (h : i ∈ positions selection length) : i < length :=
  ((mem_positions_iff selection length i).1 h).1

end Selection

end LooseRecords
