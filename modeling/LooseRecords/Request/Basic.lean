import LooseRecords.Edit.Assignment
import LooseRecords.Edit.Creation
import LooseRecords.Edit.Removal
import LooseRecords.Query.Filter
import LooseRecords.Query.Page
import LooseRecords.Query.Sorted
import LooseRecords.Request.Operation
import LooseRecords.Summary.Statistics

/-!
# Requests

A request is one operation with the parameters that it uses and no others. `Request.perform` is
what it does to a record set.
-/

namespace LooseRecords

/-- An operation with its parameters. -/
inductive Request where
  | create (payload : Json) (place : Place)
  | filter (group : Group)
  | sort (field : String) (direction : Direction)
  | search (field term : String) (caseSensitive : Bool)
  | page (limit offset : Int)
  | cells (rows fields : String)
  /-- A way of reading that is not known returns the records as they are. -/
  | passThrough
  | updateMatching (group : Group) (assignments : List Assignment)
  | updateAt (rows field value : String)
  | deleteMatching (group : Group)
  | deleteAt (rows : String)
  | removeDuplicates (fields : String)
  | statistics (field : String) (groupField : Option String)

namespace Request

/-- The operation that a request is for. -/
def operation : Request → Operation
  | .create .. => .create
  | .filter .. | .sort .. | .search .. | .page .. | .cells .. | .passThrough => .read
  | .updateMatching .. | .updateAt .. => .update
  | .deleteMatching .. | .deleteAt .. => .delete
  | .removeDuplicates .. => .removeDuplicates
  | .statistics .. => .statistics

/-- What a request makes of a record set. -/
def perform (request : Request) (records : RecordSet) : Except (Stop Failure) RecordSet :=
  match request with
  | .create payload place => (Edit.create payload place records).mapError .failed
  | .filter group => .ok (Query.filter group records)
  | .sort field direction =>
    match Query.sort field direction records with
    | some sorted => .ok sorted
    | none => .error .panicked
  | .search field term caseSensitive => .ok (Query.search field term caseSensitive records)
  | .page limit offset => .ok (Query.page limit offset records)
  | .cells rows fields => .ok (Query.cells rows fields records)
  | .passThrough => .ok records
  | .updateMatching group assignments =>
    ((Edit.updateMatching group assignments records).map Prod.snd).mapError .failed
  | .updateAt rows field value => .ok (Edit.updateAt rows field value records).2
  | .deleteMatching group => (Edit.deleteMatching group records).mapError .failed
  | .deleteAt rows => .ok (Edit.deleteAt rows records)
  | .removeDuplicates fields => .ok (Edit.removeDuplicates fields records)
  | .statistics field groupField => .ok (Summary.statistics field groupField records)

end Request

end LooseRecords
