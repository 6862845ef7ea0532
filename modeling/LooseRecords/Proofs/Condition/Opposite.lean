import LooseRecords.Proofs.Condition.Reads
import LooseRecords.Proofs.Number.Place

/-!
# Opposite conditions

Some operators come in pairs that answer every question in opposite ways, and so do groups in which
each operator is replaced by its opposite and `all` by `any`. The operators that order numbers are
no such pairs: where there is no number, none of them matches. `Group.deMorgan_and_trichotomy` says
which answers go together.
-/

namespace LooseRecords

namespace Operator

/-- The operators that have an opposite. -/
def paired : List Operator :=
  [.equals, .notEquals, .contains, .notContains, .isEmpty, .isNotEmpty]

/-- The operator that answers the other way round, if there is one. -/
def opposite : Operator → Operator
  | .equals => .notEquals
  | .notEquals => .equals
  | .contains => .notContains
  | .notContains => .contains
  | .isEmpty => .isNotEmpty
  | .isNotEmpty => .isEmpty
  | operator => operator

/-- The operators that compare numbers. -/
def ordering : List Operator := [.lessThan, .lessOrEqual, .greaterThan, .greaterOrEqual]

/-- Exactly the names that are not listed mean the operator that is not known. -/
theorem ofName_eq_unknown_iff (name : String) :
    ofName name = .unknown ↔ name ∉ Fields.names named := by
  constructor
  · intro hname hmem
    have hknown : ∀ name ∈ Fields.names named, ofName name ≠ .unknown := by decide
    exact hknown name hmem hname
  · intro hmem
    have hnone : Fields.get? named name = none := by
      rwa [Fields.mem_names_iff, Bool.not_eq_true, Option.isSome_eq_false_iff,
        Option.isNone_iff_eq_none] at hmem
    rw [ofName, hnone]
    rfl

end Operator

namespace Logic

/-- All conditions must be met where one was enough, and the other way round. -/
def opposite : Logic → Logic
  | .all => .any
  | .any => .all

theorem combine_opposite (logic : Logic) (answers : List Bool) :
    logic.opposite.combine (answers.map not) = !logic.combine answers := by
  cases logic with
  | all =>
    show (answers.map not).any id = !answers.all id
    rw [List.any_map, List.not_all_eq_any_not]
    rfl
  | any =>
    show (answers.map not).all id = !answers.any id
    rw [List.all_map, List.not_any_eq_all_not]
    rfl

end Logic

namespace Condition

/-- The same comparison with the opposite operator. -/
def opposite (c : Condition) : Condition := { c with operator := c.operator.opposite }

variable {c : Condition}

theorem isMet_opposite (h : c.operator ∈ Operator.paired) (caseSensitive : Bool) (r : Record) :
    c.opposite.isMet caseSensitive r = !c.isMet caseSensitive r := by
  obtain ⟨field, operator, operand⟩ := c
  simp only [Operator.paired, List.mem_cons, List.not_mem_nil, or_false] at h
  rcases h with rfl | rfl | rfl | rfl | rfl | rfl
  · rfl
  · exact (Bool.not_not _).symm
  · rfl
  · exact (Bool.not_not _).symm
  · rfl
  · exact (Bool.not_not _).symm

theorem isMet_of_unknown (h : c.operator = .unknown) (caseSensitive : Bool) (r : Record) :
    c.isMet caseSensitive r = false := by
  rw [isMet, h]

end Condition

namespace Group

/-- The same questions with opposite operators, and with the opposite way to combine them. -/
def opposite (g : Group) : Group :=
  { g with conditions := g.conditions.map Condition.opposite, logic := g.logic.opposite }

variable {g : Group}

theorem isMet_opposite (hne : g.conditions ≠ [])
    (hpaired : ∀ c ∈ g.conditions, c.operator ∈ Operator.paired) (r : Record) :
    g.opposite.isMet r = !g.isMet r := by
  have hasks : g.isEmpty = false := List.isEmpty_eq_false_iff.2 hne
  have hopposite : g.opposite.isEmpty = false :=
    List.isEmpty_eq_false_iff.2 (mt List.map_eq_nil_iff.1 hne)
  have hanswers : g.opposite.conditions.map (·.isMet g.caseSensitive r) =
      (g.conditions.map (·.isMet g.caseSensitive r)).map not := by
    rw [opposite, List.map_map, List.map_map]
    exact List.map_congr_left fun c hc =>
      Condition.isMet_opposite (hpaired c hc) g.caseSensitive r
  rw [isMet_eq, isMet_eq, hasks, hopposite, Bool.false_or, Bool.false_or, ← Logic.combine_opposite,
    ← hanswers]
  rfl

/-- An unknown operator stands for an answer that is always no: it rules out that all conditions
are met, and where any condition is enough it counts for nothing. -/
theorem isMet_of_unknown {c : Condition} (h : c.operator = .unknown)
    (front behind : List Condition) (caseSensitive : Bool) (r : Record) :
    isMet { conditions := front ++ c :: behind, logic := .all, caseSensitive } r = false ∧
      isMet { conditions := front ++ c :: behind, logic := .any, caseSensitive } r =
        (front ++ behind).any (·.isMet caseSensitive r) := by
  have hasks : ∀ logic,
      isEmpty { conditions := front ++ c :: behind, logic, caseSensitive } = false :=
    fun logic => List.isEmpty_eq_false_iff.2 (by simp)
  have hno := Condition.isMet_of_unknown h caseSensitive r
  rw [isMet_eq, isMet_eq, hasks, hasks]
  simp [Logic.combine, hno]

/-- What goes together among the answers that a record gets. A group whose operators have opposites
is met exactly if the group of opposites is not. Of the questions whether a field is below a bound
or not below it exactly one is answered with yes, and so for above, provided that both are numbers;
otherwise all four are answered with no. An operator that is not known is one whose name is not
listed; it never matches, whatever stands in front of it and behind it. -/
theorem deMorgan_and_trichotomy (r : Record) :
    (∀ g : Group, g.conditions ≠ [] → (∀ c ∈ g.conditions, c.operator ∈ Operator.paired) →
      g.opposite.isMet r = !g.isMet r) ∧
    (∀ (field : String) (operand : Option String) (caseSensitive : Bool),
      let meets (operator : Operator) : Bool :=
        Condition.isMet { field, operator, operand } caseSensitive r
      let number := Value.asNumber (r.get? field)
      let bound := Value.asNumber (operand.map .string)
      (number.isNan = false → bound.isNan = false →
        meets .greaterOrEqual = !meets .lessThan ∧ meets .lessOrEqual = !meets .greaterThan) ∧
      (number.isNan = true ∨ bound.isNan = true →
        ∀ operator ∈ Operator.ordering, meets operator = false)) ∧
    (∀ name, Operator.ofName name = .unknown ↔ name ∉ Fields.names Operator.named) ∧
    (∀ (c : Condition), c.operator = .unknown →
      ∀ (front behind : List Condition) (caseSensitive : Bool),
        c.isMet caseSensitive r = false ∧
        isMet { conditions := front ++ c :: behind, logic := .all, caseSensitive } r = false ∧
        isMet { conditions := front ++ c :: behind, logic := .any, caseSensitive } r =
          (front ++ behind).any (·.isMet caseSensitive r)) := by
  refine ⟨fun g hne hpaired => isMet_opposite hne hpaired r, ?_, Operator.ofName_eq_unknown_iff, ?_⟩
  · intro field operand caseSensitive meets number bound
    obtain ⟨hlt, hle, hgt, hge⟩ : meets .lessThan = number.lt bound ∧
        meets .lessOrEqual = number.le bound ∧ meets .greaterThan = bound.lt number ∧
        meets .greaterOrEqual = bound.le number := ⟨rfl, rfl, rfl, rfl⟩
    constructor
    · intro hnumber hbound
      rw [hge, hlt, hle, hgt]
      exact ⟨Number.le_eq_not_lt hbound hnumber, Number.le_eq_not_lt hnumber hbound⟩
    · intro hnan operator hoperator
      have hnan' := hnan.symm
      simp only [Operator.ordering, List.mem_cons, List.not_mem_nil, or_false] at hoperator
      rcases hoperator with rfl | rfl | rfl | rfl
      · exact hlt.trans (Number.lt_of_isNan hnan)
      · exact hle.trans (Number.le_of_isNan hnan)
      · exact hgt.trans (Number.lt_of_isNan hnan')
      · exact hge.trans (Number.le_of_isNan hnan')
  · intro c hc front behind caseSensitive
    exact ⟨Condition.isMet_of_unknown hc caseSensitive r,
      isMet_of_unknown hc front behind caseSensitive r⟩

/-- A text in other letter case, a hexadecimal numeral, an operand that is missing, and an operator
that is none. -/
theorem deMorgan_and_trichotomy_hexadecimal :
    let r : Record := ⟨[("v", .string "Ab"), ("n", .string "0x1E")]⟩
    let g : Group :=
      { conditions := [{ field := "v", operator := .notEquals, operand := some "AB" },
          { field := "w", operator := .isEmpty }] }
    let pattern : Condition := { field := "v", operator := .ofName "regex", operand := some "." }
    let meets (operand : Option String) (operator : Operator) : Bool :=
      Condition.isMet { field := "n", operator, operand } false r
    (g.conditions ≠ [] ∧ (∀ c ∈ g.conditions, c.operator ∈ Operator.paired) ∧
      g.isMet r = false ∧ g.opposite.isMet r = true) ∧
    ((Value.asNumber (r.get? "n")).isNan = false ∧
      (Value.asNumber (some (.string "30.5"))).isNan = false ∧
      meets (some "30.5") .lessThan = true ∧ meets (some "30.5") .greaterOrEqual = false) ∧
    ((Value.asNumber none).isNan = true ∧ meets none .lessOrEqual = false) ∧
    (pattern.operator = .unknown ∧
      isMet { conditions := g.conditions ++ [pattern], logic := .any } r = true) := by
  intro r g pattern meets
  obtain ⟨hopposite, hordering, hnames, hunknown⟩ := deMorgan_and_trichotomy r
  have hne : g.conditions ≠ [] := by decide
  have hpaired : ∀ c ∈ g.conditions, c.operator ∈ Operator.paired := by decide
  have hmet : g.isMet r = false := by decide +kernel
  have hnegated := hopposite g hne hpaired
  rw [hmet] at hnegated
  have hnumber : (Value.asNumber (r.get? "n")).isNan = false := by decide +kernel
  have hbound : (Value.asNumber (some (.string "30.5"))).isNan = false := by decide +kernel
  have hbelow : meets (some "30.5") .lessThan = true := by decide +kernel
  have hnotBelow := ((hordering "n" (some "30.5") false).1 hnumber hbound).1
  have hpattern : pattern.operator = .unknown := (hnames "regex").2 (by decide)
  have hany := (hunknown pattern hpattern g.conditions [] false).2.2
  refine ⟨⟨hne, hpaired, hmet, hnegated⟩, ⟨hnumber, hbound, hbelow, ?_⟩, ⟨rfl, ?_⟩, hpattern, ?_⟩
  · exact hnotBelow.trans (congrArg not hbelow)
  · exact (hordering "n" none false).2 (.inr rfl) .lessOrEqual (by decide)
  · exact hany.trans (by decide +kernel)

end Group

end LooseRecords
