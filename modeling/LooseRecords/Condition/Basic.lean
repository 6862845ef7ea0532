import LooseRecords.Record
import LooseRecords.Text.Search
import LooseRecords.Value.Display

/-!
# Conditions

A condition compares one field of a record with an operand. Text operators compare display texts,
order operators compare numbers, and a field is empty if it is vacant.
-/

namespace LooseRecords

/-- How a field is compared. -/
inductive Operator where
  | equals
  | notEquals
  | contains
  | notContains
  | greaterThan
  | greaterOrEqual
  | lessThan
  | lessOrEqual
  | startsWith
  | endsWith
  | isEmpty
  | isNotEmpty
  /-- Any operator that is not known; it never matches. -/
  | unknown
  deriving DecidableEq, Repr

namespace Operator

/-- The operators with their names. -/
def named : List (String × Operator) :=
  [("equals", .equals), ("notEquals", .notEquals), ("contains", .contains),
   ("notContains", .notContains), ("greaterThan", .greaterThan),
   ("greaterOrEqual", .greaterOrEqual), ("lessThan", .lessThan), ("lessOrEqual", .lessOrEqual),
   ("startsWith", .startsWith), ("endsWith", .endsWith), ("isEmpty", .isEmpty),
   ("isNotEmpty", .isNotEmpty)]

/-- The operator with a name. -/
def ofName (name : String) : Operator := (Fields.get? named name).getD .unknown

/-- The name of an operator. -/
def name : Operator → String
  | .equals => "equals"
  | .notEquals => "notEquals"
  | .contains => "contains"
  | .notContains => "notContains"
  | .greaterThan => "greaterThan"
  | .greaterOrEqual => "greaterOrEqual"
  | .lessThan => "lessThan"
  | .lessOrEqual => "lessOrEqual"
  | .startsWith => "startsWith"
  | .endsWith => "endsWith"
  | .isEmpty => "isEmpty"
  | .isNotEmpty => "isNotEmpty"
  | .unknown => "unknown"

/-- The operator takes no operand. -/
def standsAlone : Operator → Bool
  | .isEmpty | .isNotEmpty => true
  | _ => false

end Operator

/-- A comparison of a field with an operand. The operand is text and is never given a type; an
absent one is compared like a missing field. -/
structure Condition where
  field : String := ""
  operator : Operator := .equals
  operand : Option String := none
  deriving DecidableEq, Repr

namespace Condition

/-- The operand as a value. -/
def operandValue (c : Condition) : Option Value := c.operand.map .string

/-- A relation between the display texts of a field and of the operand, folded unless case
matters. -/
def onTexts (c : Condition) (caseSensitive : Bool) (value : Option Value)
    (relation : List Char → List Char → Bool) : Bool :=
  relation (Text.fold caseSensitive (Value.displayField value))
    (Text.fold caseSensitive (Value.displayField c.operandValue))

/-- A relation between the numbers that a field and the operand stand for. -/
def onNumbers (c : Condition) (value : Option Value) (relation : Number → Number → Bool) : Bool :=
  relation (Value.asNumber value) (Value.asNumber c.operandValue)

/-- A record meets the condition. -/
def isMet (c : Condition) (caseSensitive : Bool) (record : Record) : Bool :=
  let value := record.get? c.field
  match c.operator with
  | .equals => c.onTexts caseSensitive value fun text operand => text == operand
  | .notEquals => c.onTexts caseSensitive value fun text operand => text != operand
  | .contains => c.onTexts caseSensitive value fun text operand => Text.occursIn operand text
  | .notContains => c.onTexts caseSensitive value fun text operand => !Text.occursIn operand text
  | .startsWith => c.onTexts caseSensitive value fun text operand => operand.isPrefixOf text
  | .endsWith => c.onTexts caseSensitive value fun text operand => operand.isSuffixOf text
  | .greaterThan => c.onNumbers value fun number operand => operand.lt number
  | .greaterOrEqual => c.onNumbers value fun number operand => operand.le number
  | .lessThan => c.onNumbers value fun number operand => number.lt operand
  | .lessOrEqual => c.onNumbers value fun number operand => number.le operand
  | .isEmpty => Value.isVacant value
  | .isNotEmpty => !Value.isVacant value
  | .unknown => false

end Condition

end LooseRecords
