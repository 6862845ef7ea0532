/-!
# Sequences merged by position

A whole of which each position belongs to exactly one of two parts, both in the order of the whole.
`SamePositions` compares what was selected of two wholes by where it stood.
-/

namespace LooseRecords

variable {α β : Type}

/-- Two parts merged into a whole: a mark for each position of the whole says whether its item is
the next one of the first part or the next one of the second. -/
inductive Merged : List Bool → List α → List α → List α → Prop where
  | nil : Merged [] [] [] []
  | first {marks whole first second} (a : α) :
    Merged marks whole first second → Merged (true :: marks) (a :: whole) (a :: first) second
  | second {marks whole first second} (a : α) :
    Merged marks whole first second → Merged (false :: marks) (a :: whole) first (a :: second)

namespace Merged

/-- The items that satisfy a test and those that do not make up the whole. -/
theorem filter (test : α → Bool) (whole : List α) :
    Merged (whole.map test) whole (whole.filter test) (whole.filter fun a => !test a) := by
  induction whole with
  | nil => exact .nil
  | cons a whole ih =>
    cases ha : test a with
    | true => simpa [ha] using ih.first a
    | false => simpa [ha] using ih.second a

section

variable {marks : List Bool} {whole first second : List α}

theorem map (f : α → β) (h : Merged marks whole first second) :
    Merged marks (whole.map f) (first.map f) (second.map f) := by
  induction h with
  | nil => exact .nil
  | first a _ ih => exact ih.first (f a)
  | second a _ ih => exact ih.second (f a)

/-- A change of the items of the first part, made in their places in the whole. -/
theorem mapFirst (f : α → α) (h : Merged marks whole first second) :
    Merged marks (List.zipWith (fun mark a => if mark then f a else a) marks whole)
      (first.map f) second := by
  induction h with
  | nil => exact .nil
  | first a _ ih => exact ih.first (f a)
  | second a _ ih => exact ih.second a

theorem sublist_first (h : Merged marks whole first second) : first.Sublist whole := by
  induction h with
  | nil => exact .slnil
  | first a _ ih => exact ih.cons_cons a
  | second a _ ih => exact ih.cons a

theorem sublist_second (h : Merged marks whole first second) : second.Sublist whole := by
  induction h with
  | nil => exact .slnil
  | first a _ ih => exact ih.cons a
  | second a _ ih => exact ih.cons_cons a

theorem length_add (h : Merged marks whole first second) :
    first.length + second.length = whole.length := by
  induction h with
  | nil => rfl
  | first a _ ih | second a _ ih =>
    simp only [List.length_cons]
    omega

/-- The marks say how many items the first part has. -/
theorem length_first (h : Merged marks whole first second) : first.length = marks.count true := by
  induction h with
  | nil => rfl
  | first a _ ih => rw [List.length_cons, ih, List.count_cons_self]
  | second a _ ih => rw [ih, List.count_cons_of_ne (by decide)]

/-- The marks and the whole determine both parts. -/
theorem unique {first' second' : List α} (h : Merged marks whole first second)
    (h' : Merged marks whole first' second') : first = first' ∧ second = second' := by
  induction h generalizing first' second' with
  | nil => cases h' with
    | nil => exact ⟨rfl, rfl⟩
  | first a _ ih => cases h' with
    | first _ h' =>
      obtain ⟨rfl, rfl⟩ := ih h'
      exact ⟨rfl, rfl⟩
  | second a _ ih => cases h' with
    | second _ h' =>
      obtain ⟨rfl, rfl⟩ := ih h'
      exact ⟨rfl, rfl⟩

/-- Two merges one behind the other. -/
theorem append {marks' : List Bool} {whole' first' second' : List α}
    (h : Merged marks whole first second) (h' : Merged marks' whole' first' second') :
    Merged (marks ++ marks') (whole ++ whole') (first ++ first') (second ++ second') := by
  induction h with
  | nil => exact h'
  | first a _ ih => exact ih.first a
  | second a _ ih => exact ih.second a

end

/-- All items are in the first part. -/
theorem allFirst (whole : List α) :
    Merged (List.replicate whole.length true) whole whole [] := by
  induction whole with
  | nil => exact .nil
  | cons a whole ih => exact ih.first a

/-- All items are in the second part. -/
theorem allSecond (whole : List α) :
    Merged (List.replicate whole.length false) whole [] whole := by
  induction whole with
  | nil => exact .nil
  | cons a whole ih => exact ih.second a

end Merged

/-- The parts stand at the same positions of two wholes. -/
def SamePositions (whole part : List α) (whole' part' : List β) : Prop :=
  ∃ marks rest rest', Merged marks whole part rest ∧ Merged marks whole' part' rest'

/-- As many items are selected of one whole as of the other. -/
theorem SamePositions.length_eq {whole part : List α} {whole' part' : List β}
    (h : SamePositions whole part whole' part') : part.length = part'.length := by
  obtain ⟨marks, rest, rest', hpart, hpart'⟩ := h
  rw [hpart.length_first, hpart'.length_first]

theorem SamePositions.filter {test : α → Bool} {test' : β → Bool} {whole : List α}
    {whole' : List β} (h : whole.map test = whole'.map test') :
    SamePositions whole (whole.filter test) whole' (whole'.filter test') := by
  have hmerged := Merged.filter test whole
  rw [h] at hmerged
  exact ⟨_, _, _, hmerged, Merged.filter test' whole'⟩

end LooseRecords
