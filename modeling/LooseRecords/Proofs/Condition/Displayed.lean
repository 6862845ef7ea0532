import LooseRecords.Condition.Basic
import LooseRecords.Proofs.Number.Place
import LooseRecords.Proofs.Value.Display

/-!
# Numbers and their own text

A condition whose operand is the display text of a number, asked about a field that holds the
number. `Condition.isMet_displayed` says that the field is equal to the operand, as a text and as a
number, and neither above nor below it.
-/

namespace LooseRecords

namespace Number

/-- What the display text of a number stands for is numerically equal to that number. -/
theorem samePlace_read_display (n : Number) : n.SamePlace (read n.display) := by
  rw [read_display]
  split
  case isTrue hzero =>
    have hplace : n.place? = some 0 := by simpa [isZero] using hzero
    exact hplace
  case isFalse => exact .refl n

end Number

namespace Condition

/-- The display text of a number reads back as that number, where either zero is read as the
positive one. So a field that holds a number is equal to its text, and neither above nor below
it. -/
theorem isMet_displayed (n : Number) :
    Number.read n.display = (if n.isZero then .zero else n) ∧
      ∀ (record : Record) (field : String) (caseSensitive : Bool),
        record.get? field = some (.number n) → n.isNan = false →
          let operand := String.ofList (Value.displayField (some (.number n)))
          let meets (operator : Operator) : Bool :=
            isMet { field, operator, operand := some operand } caseSensitive record
          meets .equals = true ∧ meets .greaterOrEqual = true ∧ meets .lessOrEqual = true ∧
            meets .notEquals = false ∧ meets .greaterThan = false ∧ meets .lessThan = false := by
  refine ⟨n.read_display, fun record field caseSensitive hfield hnan => ?_⟩
  intro operand meets
  have hplace := n.samePlace_read_display
  have hnan' : (Number.read n.display).isNan = false := by rw [← Number.isNan_congr hplace, hnan]
  have hbelow : n.compare? (Number.read n.display) = some .eq := Number.compare?_self hplace hnan
  have habove : (Number.read n.display).compare? n = some .eq :=
    Number.compare?_self hplace.symm hnan'
  have hoperand : operand.toList = n.display := String.toList_ofList
  -- Both relations on texts see one text twice, those on numbers two numbers at one place.
  have htexts : ∀ operator relation,
      onTexts { field, operator, operand := some operand } caseSensitive (record.get? field)
        relation =
      relation (Text.fold caseSensitive n.display) (Text.fold caseSensitive n.display) := by
    intro operator relation
    rw [onTexts, hfield]
    show relation _ (Text.fold caseSensitive operand.toList) = _
    rw [hoperand]
    rfl
  have hnumbers : ∀ operator relation,
      onNumbers { field, operator, operand := some operand } (record.get? field) relation =
        relation n (Number.read n.display) := by
    intro operator relation
    rw [onNumbers, hfield]
    show relation n (Number.read operand.toList) = _
    rw [hoperand]
  refine ⟨?_, ?_, ?_, ?_, ?_, ?_⟩
  · exact (htexts .equals fun text operand => text == operand).trans (by simp)
  · exact (hnumbers .greaterOrEqual fun number operand => operand.le number).trans
      (by simp [Number.le, habove])
  · exact (hnumbers .lessOrEqual fun number operand => number.le operand).trans
      (by simp [Number.le, hbelow])
  · exact (htexts .notEquals fun text operand => text != operand).trans (by simp)
  · exact (hnumbers .greaterThan fun number operand => operand.lt number).trans
      (by simp [Number.lt, habove])
  · exact (hnumbers .lessThan fun number operand => number.lt operand).trans
      (by simp [Number.lt, hbelow])

/-- A negative number that is displayed with an exponent. -/
theorem isMet_displayed_exponent :
    let n : Number := .ofBits 0xBE7AD7F29ABCAF48
    let record : Record := ⟨[("x", .number n)]⟩
    let meets (operator : Operator) : Bool :=
      isMet { field := "x", operator, operand := some "-1e-7" } false record
    record.get? "x" = some (.number n) ∧ n.isNan = false ∧ Number.read "-1e-7".toList = n ∧
      meets .equals = true ∧ meets .greaterOrEqual = true ∧ meets .lessOrEqual = true ∧
      meets .notEquals = false ∧ meets .greaterThan = false ∧ meets .lessThan = false := by
  intro n record meets
  have hfield : record.get? "x" = some (.number n) := rfl
  have hnan : n.isNan = false := by decide +kernel
  have hzero : n.isZero = false := by decide +kernel
  have hdisplay : n.display = "-1e-7".toList := by decide +kernel
  have hoperand : String.ofList (Value.displayField (some (.number n))) = "-1e-7" := by
    show String.ofList n.display = "-1e-7"
    rw [hdisplay]
    rfl
  obtain ⟨hread, hmet⟩ := isMet_displayed n
  have hsix := hmet record "x" false hfield hnan
  rw [hoperand] at hsix
  rw [hdisplay, hzero] at hread
  exact ⟨hfield, hnan, hread, hsix⟩

end Condition

end LooseRecords
