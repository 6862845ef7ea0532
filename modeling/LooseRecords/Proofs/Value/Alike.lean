import LooseRecords.Proofs.Number.Place
import LooseRecords.Proofs.Value.Reloaded
import LooseRecords.Value.Display

/-!
# Values that look alike

What queries see of a field: how it is displayed, whether it is vacant, and which number it is or
stands for. Two fields are `Value.Alike` if they agree in this. `Value.alike_reloaded` says that
saving and loading leaves a value alike if it holds no number that JSON lacks.
-/

namespace LooseRecords

namespace Number

/-- Numerically equal numbers are displayed alike: neither zero shows a sign. -/
theorem SamePlace.display {a b : Number} (h : a.SamePlace b) : a.display = b.display := by
  obtain rfl | ⟨s, t, rfl, rfl⟩ := h.eq_or_zeros
  · rfl
  · have hzero : ∀ sign, (ofRank sign 0).display = zero.display := by decide +kernel
    rw [hzero, hzero]

/-- Saving and loading leaves a finite number as it is, up to the sign of zero. -/
theorem reloaded_eq_number {n : Number} (h : n.isFinite = true) :
    ∃ m, n.reloaded = .number m ∧ n.SamePlace m := by
  cases n with
  | nan | infinite => cases h
  | finite negative rank =>
    refine ⟨_, rfl, ?_⟩
    cases negative
    · exact .refl _
    · by_cases hzero : rank.val = 0
      · simp [SamePlace, place?, hzero]
      · simp [SamePlace, place?, hzero]

end Number

namespace Value

/-! ## Fields that look alike -/

/-- Two fields that queries by text do not tell apart. -/
structure Alike (a b : Option Value) : Prop where
  text : displayField a = displayField b
  /-- Between separators they show the same. -/
  item : (a.map displayItem).getD [] = (b.map displayItem).getD []
  vacant : isVacant a = isVacant b
  /-- If one is a number, so is the other, and they are numerically equal. -/
  number : Option.Rel Number.SamePlace (a.bind number?) (b.bind number?)
  /-- The numbers for which they stand are numerically equal, unless the first field is a date: its
  milliseconds are lost where its text takes its place. -/
  reading : (∀ t, a ≠ some (.date t)) → (asNumber a).SamePlace (asNumber b)

theorem Alike.refl (a : Option Value) : Alike a a where
  text := rfl
  item := rfl
  vacant := rfl
  number := by
    cases a.bind number? with
    | none => exact .none
    | some n => exact .some (.refl n)
  reading := fun _ => .refl _

/-- Numerically equal numbers look alike. -/
theorem Alike.of_samePlace {m n : Number} (h : m.SamePlace n) :
    Alike (some (.number m)) (some (.number n)) where
  text := h.display
  item := h.display
  vacant := by simp only [isVacant, Number.isZero_congr h, Number.isNan_congr h]
  number := .some h
  reading := fun _ => h

/-! ## What loading leaves -/

mutual

/-- Every number within the value is finite. -/
def AllFinite : Value → Prop
  | .number n => n.isFinite = true
  | .array items => ItemsAllFinite items
  | .object fields => FieldsAllFinite fields
  | .null | .bool _ | .string _ | .date _ => True

/-- Every number within the items is finite. -/
def ItemsAllFinite : List Value → Prop
  | [] => True
  | item :: items => AllFinite item ∧ ItemsAllFinite items

/-- Every number within the values of the fields is finite. -/
def FieldsAllFinite : List (String × Value) → Prop
  | [] => True
  | (_, value) :: fields => AllFinite value ∧ FieldsAllFinite fields

end

theorem isNull_reloaded {v : Value} (h : v.AllFinite) : v.reloaded.isNull = v.isNull := by
  cases v with
  | number n =>
    obtain ⟨m, hm, -⟩ := Number.reloaded_eq_number h
    rw [reloaded, hm]
    rfl
  | _ => rfl

mutual

/-- A value is displayed after it was loaded as it was before. -/
theorem display_reloaded (v : Value) (h : v.AllFinite) : v.reloaded.display = v.display := by
  match v with
  | .null | .bool b | .string s | .object fields => rfl
  | .date t => exact String.toList_ofList
  | .number n =>
    obtain ⟨m, hm, hplace⟩ := Number.reloaded_eq_number h
    rw [reloaded, hm]
    exact hplace.display.symm
  | .array items => exact displayItems_reloaded items h

theorem displayItems_reloaded (items : List Value) (h : ItemsAllFinite items) :
    displayItems (itemsReloaded items) = displayItems items := by
  match items with
  | [] => rfl
  | [item] =>
    simp only [itemsReloaded, displayItems, isNull_reloaded h.1, display_reloaded item h.1]
  | item :: next :: items =>
    have hrest := displayItems_reloaded (next :: items) h.2
    simp only [itemsReloaded] at hrest
    simp only [itemsReloaded, displayItems, isNull_reloaded h.1, display_reloaded item h.1, hrest]

end

/-- A date is displayed as its text, which is not empty. -/
theorem alike_date (t : Instant) :
    Alike (some (.date t)) (some (.string (String.ofList t.iso))) where
  text := String.toList_ofList.symm
  item := String.toList_ofList.symm
  vacant := by
    have hne : t.iso ≠ [] := by simp [Instant.iso]
    simpa [isVacant, String.ofList_eq_empty_iff] using hne
  number := .none
  reading := fun hdate => absurd rfl (hdate t)

/-- A value without numbers that JSON lacks looks after it was loaded as it did before. -/
theorem alike_reloaded {v : Value} (h : v.AllFinite) : Alike (some v) (some v.reloaded) := by
  cases v with
  | null | bool | string => exact .refl _
  | number n =>
    obtain ⟨m, hm, hplace⟩ := Number.reloaded_eq_number h
    rw [reloaded, hm]
    exact .of_samePlace hplace
  | date t => exact alike_date t
  | array items =>
    have htext := displayItems_reloaded items h
    exact {
      text := htext.symm
      item := htext.symm
      vacant := rfl
      number := .none
      reading := fun _ => by
        show (Number.read (displayItems items)).SamePlace
          (Number.read (displayItems (itemsReloaded items)))
        rw [htext]
        exact .refl _ }
  | object fields =>
    exact { text := rfl, item := rfl, vacant := rfl, number := .none, reading := fun _ => .refl _ }

end Value

end LooseRecords
