import LooseRecords.Proofs.Number.Place
import LooseRecords.Proofs.Text.Collation
import LooseRecords.Query.Sorted

/-!
# The order of fields

Two numbers are ordered by their size, and all other pairs of fields by their texts. Either order by
itself is consistent, but a field between two others need not be compared with both in the same way:
`nan` counts as equal to every number, and two numbers may come in the other order by their texts.
`Query.Tangled` names the three fields for which this matters, and `Query.fieldOrder_consistent`
says that there are no others.
-/

namespace LooseRecords

namespace Query

/-! ## Two fields -/

theorem eq_number_of_number? {a : Option Value} {x : Number}
    (h : a.bind Value.number? = some x) : a = some (.number x) := by
  cases a with
  | none => cases h
  | some v =>
    cases v with
    | number n =>
      cases h
      rfl
    | null | bool | string | date | array | object => cases h

/-- Two numbers are ordered by their size, all else by its display text. -/
theorem fieldOrder_eq (a b : Option Value) :
    fieldOrder a b =
      match a.bind Value.number?, b.bind Value.number? with
      | some x, some y => (x.compare? y).getD .eq
      | _, _ => Text.collate (Value.displayField a) (Value.displayField b) := by
  obtain - | ⟨- | - | - | - | - | - | -⟩ := a <;>
    obtain - | ⟨- | - | - | - | - | - | -⟩ := b <;> rfl

/-- Fields of which one is no number are ordered by their texts. -/
theorem fieldOrder_of_text {a b : Option Value}
    (h : a.bind Value.number? = none ∨ b.bind Value.number? = none) :
    fieldOrder a b = Text.collate (Value.displayField a) (Value.displayField b) := by
  rw [fieldOrder_eq]
  rcases h with h | h
  · rw [h]
  · rw [h]
    cases a.bind Value.number? <;> rfl

/-- Two numbers are out of order exactly if the second lies below the first. -/
theorem fieldOrder_number_eq_gt_iff (x y : Number) :
    fieldOrder (some (.number x)) (some (.number y)) = .gt ↔ y.lt x = true := by
  show (x.compare? y).getD .eq = .gt ↔ _
  rw [Number.lt, Number.compare?_swap x y]
  cases x.compare? y with
  | none => simp
  | some order => cases order <;> simp

theorem fieldOrder_number_ne_gt_iff (x y : Number) :
    fieldOrder (some (.number x)) (some (.number y)) ≠ .gt ↔ y.lt x = false := by
  rw [ne_eq, fieldOrder_number_eq_gt_iff, Bool.not_eq_true]

/-- Fields that change places are ordered the other way. -/
theorem fieldOrder_swap (a b : Option Value) : fieldOrder b a = (fieldOrder a b).swap := by
  cases ha : a.bind Value.number? with
  | none =>
    rw [fieldOrder_of_text (.inl ha), fieldOrder_of_text (.inr ha)]
    exact Text.collate_swap ..
  | some x =>
    cases hb : b.bind Value.number? with
    | none =>
      rw [fieldOrder_of_text (.inl hb), fieldOrder_of_text (.inr hb)]
      exact Text.collate_swap ..
    | some y =>
      rw [fieldOrder_eq, fieldOrder_eq, ha, hb]
      show (y.compare? x).getD .eq = ((x.compare? y).getD .eq).swap
      rw [Number.compare?_swap x y]
      cases x.compare? y <;> rfl

/-! ## Three fields -/

/-- Three fields of which the last comes before the first, although neither comes before the one in
front of it. -/
inductive Tangled : Option Value → Option Value → Option Value → Prop
  /-- Between two numbers that fall stands `nan`, which counts as equal to both. -/
  | unordered {x z : Number} (falls : z.lt x = true) :
    Tangled (some (.number x)) (some (.number .nan)) (some (.number z))
  /-- Between two numbers that fall stands a text that lies between theirs, which rise. -/
  | between {x z : Number} {b : Option Value} (other : b.bind Value.number? = none)
    (first : Text.collate x.display (Value.displayField b) ≠ .gt)
    (second : Text.collate (Value.displayField b) z.display ≠ .gt) (falls : z.lt x = true) :
    Tangled (some (.number x)) b (some (.number z))
  /-- Behind two numbers that do not fall comes a text that lies between theirs, which do. -/
  | behind {x y : Number} {c : Option Value} (other : c.bind Value.number? = none)
    (rises : y.lt x = false) (second : Text.collate y.display (Value.displayField c) ≠ .gt)
    (falls : Text.collate x.display (Value.displayField c) = .gt) :
    Tangled (some (.number x)) (some (.number y)) c
  /-- In front of two numbers that do not fall comes a text that lies between theirs, which do. -/
  | before {y z : Number} {a : Option Value} (other : a.bind Value.number? = none)
    (first : Text.collate (Value.displayField a) y.display ≠ .gt) (rises : z.lt y = false)
    (falls : Text.collate (Value.displayField a) z.display = .gt) :
    Tangled a (some (.number y)) (some (.number z))

/-- Fields are tangled exactly if each comes in order after the one in front of it, and the last
before the first all the same. -/
theorem tangled_iff (a b c : Option Value) :
    Tangled a b c ↔ fieldOrder a b ≠ .gt ∧ fieldOrder b c ≠ .gt ∧ fieldOrder a c = .gt := by
  constructor
  · intro h
    cases h with
    | @unordered x z falls =>
      exact ⟨(fieldOrder_number_ne_gt_iff ..).2 x.nan_lt,
        (fieldOrder_number_ne_gt_iff ..).2 z.lt_nan, (fieldOrder_number_eq_gt_iff ..).2 falls⟩
    | between other first second falls =>
      rw [fieldOrder_of_text (.inr other), fieldOrder_of_text (.inl other)]
      exact ⟨first, second, (fieldOrder_number_eq_gt_iff ..).2 falls⟩
    | behind other rises second falls =>
      rw [fieldOrder_of_text (.inr other), fieldOrder_of_text (.inr other)]
      exact ⟨(fieldOrder_number_ne_gt_iff ..).2 rises, second, falls⟩
    | before other first rises falls =>
      rw [fieldOrder_of_text (.inl other), fieldOrder_of_text (.inl other)]
      exact ⟨first, (fieldOrder_number_ne_gt_iff ..).2 rises, falls⟩
  · rintro ⟨hab, hbc, hac⟩
    -- By which of the three are numbers. With fewer than two of them all is a matter of texts.
    cases ha : a.bind Value.number? with
    | none =>
      rw [fieldOrder_of_text (.inl ha)] at hab hac
      cases hb : b.bind Value.number? with
      | none =>
        rw [fieldOrder_of_text (.inl hb)] at hbc
        exact absurd hac (Text.collate_trans hab hbc)
      | some y =>
        obtain rfl := eq_number_of_number? hb
        cases hc : c.bind Value.number? with
        | none =>
          rw [fieldOrder_of_text (.inr hc)] at hbc
          exact absurd hac (Text.collate_trans hab hbc)
        | some z =>
          obtain rfl := eq_number_of_number? hc
          exact .before ha hab ((fieldOrder_number_ne_gt_iff ..).1 hbc) hac
    | some x =>
      obtain rfl := eq_number_of_number? ha
      cases hb : b.bind Value.number? with
      | none =>
        rw [fieldOrder_of_text (.inr hb)] at hab
        rw [fieldOrder_of_text (.inl hb)] at hbc
        cases hc : c.bind Value.number? with
        | none =>
          rw [fieldOrder_of_text (.inr hc)] at hac
          exact absurd hac (Text.collate_trans hab hbc)
        | some z =>
          obtain rfl := eq_number_of_number? hc
          exact .between hb hab hbc ((fieldOrder_number_eq_gt_iff ..).1 hac)
      | some y =>
        obtain rfl := eq_number_of_number? hb
        rw [fieldOrder_number_ne_gt_iff] at hab
        cases hc : c.bind Value.number? with
        | none =>
          rw [fieldOrder_of_text (.inr hc)] at hbc hac
          exact .behind hc hab hbc hac
        | some z =>
          obtain rfl := eq_number_of_number? hc
          rw [fieldOrder_number_ne_gt_iff] at hbc
          rw [fieldOrder_number_eq_gt_iff] at hac
          by_cases hnan : y = .nan
          · subst hnan
            exact .unordered hac
          · rw [Number.lt_eq_false_trans hnan hab hbc] at hac
            cases hac

/-- Fields that change places are ordered the other way. Three fields that are in order one after
the other are in order as a whole, unless they are tangled. -/
theorem fieldOrder_consistent (a b c : Option Value) :
    fieldOrder b a = (fieldOrder a b).swap ∧
      ((fieldOrder a b ≠ .gt → fieldOrder b c ≠ .gt → fieldOrder a c ≠ .gt) ↔
        ¬ Tangled a b c) := by
  refine ⟨fieldOrder_swap a b, ?_⟩
  rw [tangled_iff]
  constructor
  · rintro h ⟨hab, hbc, hac⟩
    exact h hab hbc hac
  · intro h hab hbc hac
    exact h ⟨hab, hbc, hac⟩

/-- Nine is below ten, and the text of ten before `1x`, which comes before the text of nine. -/
theorem fieldOrder_cycle :
    ¬ ∀ a b c : Option Value, fieldOrder b a = (fieldOrder a b).swap ∧
      (fieldOrder a b ≠ .gt → fieldOrder b c ≠ .gt → fieldOrder a c ≠ .gt) := by
  intro h
  have hcycle := (h (some (.number (.ofNat 9))) (some (.number (.ofNat 10)))
    (some (.string "1x"))).2
  exact hcycle (by decide +kernel) (by decide +kernel) (by decide +kernel)

end Query

end LooseRecords
