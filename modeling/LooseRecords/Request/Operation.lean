import LooseRecords.Failure

/-!
# Operations

The operations on record sets and the selectors that name them.
-/

namespace LooseRecords

/-- An operation on a record set. -/
inductive Operation where
  | create
  | read
  | update
  | delete
  | removeDuplicates
  | statistics
  deriving DecidableEq, Repr

namespace Operation

/-- The selector of an operation. -/
def selector : Operation → String
  | .create => "create"
  | .read => "read"
  | .update => "update"
  | .delete => "delete"
  | .removeDuplicates => "removeDuplicates"
  | .statistics => "statistics"

/-- The operation with a selector. -/
def ofSelector (s : String) : Except Failure Operation :=
  if s = "create" then .ok .create
  else if s = "read" then .ok .read
  else if s = "update" then .ok .update
  else if s = "delete" then .ok .delete
  else if s = "removeDuplicates" then .ok .removeDuplicates
  else if s = "statistics" then .ok .statistics
  else .error (.unsupportedOperation s)

end Operation

end LooseRecords
