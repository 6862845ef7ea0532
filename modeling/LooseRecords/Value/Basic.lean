import LooseRecords.Calendar.Instant
import LooseRecords.Fields
import LooseRecords.Number.Basic

/-!
# Values

The dynamically typed value of a field. A field that a record lacks is no value at all: functions
that must tell it from a null take an `Option Value`.
-/

namespace LooseRecords

/-- The value of a field. -/
inductive Value where
  | null
  | bool (b : Bool)
  | number (n : Number)
  | string (s : String)
  | date (t : Instant)
  | array (items : List Value)
  | object (fields : List (String × Value))
  deriving Inhabited

namespace Value

/-- The text of a string value. -/
def string? : Value → Option String
  | .string s => some s
  | _ => none

/-- The number of a number value. -/
def number? : Value → Option Number
  | .number n => some n
  | _ => none

/-- The explicit null. -/
def isNull : Value → Bool
  | .null => true
  | _ => false

/-- A field holds nothing that counts: it is missing, null, `false`, zero, `nan` or the empty
string. Arrays, objects and dates always count. -/
def isVacant : Option Value → Bool
  | none | some .null => true
  | some (.bool b) => !b
  | some (.number n) => n.isZero || n.isNan
  | some (.string s) => s.isEmpty
  | some (.date _) | some (.array _) | some (.object _) => false

/-! ## Equality -/

mutual

/-- Two values are one and the same, decided by comparing their parts. -/
def same : Value → Value → Bool
  | .null, .null => true
  | .bool b, .bool c => b == c
  | .number m, .number n => m == n
  | .string s, .string t => s == t
  | .date t, .date u => t == u
  | .array as, .array bs => sameItems as bs
  | .object as, .object bs => sameEntries as bs
  | _, _ => false

/-- Two sequences hold the same items in the same order. -/
def sameItems : List Value → List Value → Bool
  | [], [] => true
  | a :: as, b :: bs => same a b && sameItems as bs
  | _, _ => false

/-- Two objects hold the same names with the same contents in the same order. -/
def sameEntries : List (String × Value) → List (String × Value) → Bool
  | [], [] => true
  | (key, a) :: as, (other, b) :: bs => key == other && same a b && sameEntries as bs
  | _, _ => false

end

mutual

/-- Comparing the parts decides equality. -/
theorem same_iff (a b : Value) : same a b = true ↔ a = b := by
  cases a <;> cases b <;> simp [same, sameItems_iff, sameEntries_iff]

theorem sameItems_iff (as bs : List Value) : sameItems as bs = true ↔ as = bs := by
  match as, bs with
  | [], [] => simp [sameItems]
  | [], _ :: _ => simp [sameItems]
  | _ :: _, [] => simp [sameItems]
  | a :: as, b :: bs => simp [sameItems, same_iff a b, sameItems_iff as bs]

theorem sameEntries_iff (as bs : List (String × Value)) :
    sameEntries as bs = true ↔ as = bs := by
  match as, bs with
  | [], [] => simp [sameEntries]
  | [], _ :: _ => simp [sameEntries]
  | _ :: _, [] => simp [sameEntries]
  | (key, a) :: as, (other, b) :: bs =>
    simp [sameEntries, same_iff a b, sameEntries_iff as bs]

end

instance : DecidableEq Value := fun a b => decidable_of_iff _ (same_iff a b)

end Value

end LooseRecords
