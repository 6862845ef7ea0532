import LooseRecords.Condition.Basic
import LooseRecords.Failure

/-!
# Condition groups

Conditions that are asked together: all of them or any of them, with one rule about letter case.
-/

namespace LooseRecords

/-- How the answers of several conditions combine. -/
inductive Logic where
  /-- Every condition must be met. -/
  | all
  /-- One condition must be met. -/
  | any
  deriving DecidableEq, Repr

namespace Logic

/-- `and` asks for all conditions, and any other selector for one of them. -/
def ofSelector (selector : String) : Logic := if selector = "and" then .all else .any

end Logic

/-- Conditions that are asked together. -/
structure Group where
  conditions : List Condition := []
  logic : Logic := .all
  caseSensitive : Bool := false
  deriving DecidableEq, Repr

namespace Group

/-- There is nothing to ask. -/
def isEmpty (g : Group) : Bool := g.conditions.isEmpty

/-- A record meets the group; every record meets an empty one. -/
def isMet (g : Group) (record : Record) : Bool :=
  if g.isEmpty then true
  else match g.logic with
    | .all => g.conditions.all (·.isMet g.caseSensitive record)
    | .any => g.conditions.any (·.isMet g.caseSensitive record)

/-- The first condition whose field no record has, as a failure. -/
def check (g : Group) (records : RecordSet) : Except Failure Unit :=
  match g.conditions.find? fun c => !RecordSet.hasName records c.field with
  | some c => .error (.missingField c.field)
  | none => .ok ()

end Group

end LooseRecords
