import LooseRecords.Calendar.Date
import LooseRecords.Calendar.Instant
import LooseRecords.Condition.Basic
import LooseRecords.Condition.Group
import LooseRecords.Edit.Assignment
import LooseRecords.Edit.Creation
import LooseRecords.Edit.Removal
import LooseRecords.Failure
import LooseRecords.Fields
import LooseRecords.Json.Basic
import LooseRecords.Json.Document
import LooseRecords.Json.Slots
import LooseRecords.Json.Text
import LooseRecords.Json.Token
import LooseRecords.Load.Csv
import LooseRecords.Load.File
import LooseRecords.Load.Json
import LooseRecords.Number.Arithmetic
import LooseRecords.Number.Basic
import LooseRecords.Number.Decimal
import LooseRecords.Number.Display
import LooseRecords.Number.Layout
import LooseRecords.Number.Numeral
import LooseRecords.Number.Rank
import LooseRecords.Number.Reading
import LooseRecords.Proofs.Condition.Missing
import LooseRecords.Proofs.Edit.Assignment
import LooseRecords.Proofs.Edit.Creation
import LooseRecords.Proofs.Fields
import LooseRecords.Proofs.Json.Document
import LooseRecords.Proofs.Json.Scan
import LooseRecords.Proofs.Json.Text
import LooseRecords.Proofs.Load.RoundTrip
import LooseRecords.Proofs.Merge
import LooseRecords.Proofs.Number.Layout
import LooseRecords.Proofs.Number.Numeral
import LooseRecords.Proofs.Number.Rounding
import LooseRecords.Proofs.Number.Shortest
import LooseRecords.Proofs.Request.Criteria
import LooseRecords.Proofs.Request.Failing
import LooseRecords.Proofs.Request.Resolution
import LooseRecords.Proofs.Value.Reloaded
import LooseRecords.Query.Filter
import LooseRecords.Query.Page
import LooseRecords.Query.Sorted
import LooseRecords.Record
import LooseRecords.Request.Basic
import LooseRecords.Request.Bundle
import LooseRecords.Request.Codec
import LooseRecords.Request.Operation
import LooseRecords.Run.Basic
import LooseRecords.Run.Metrics
import LooseRecords.Run.Note
import LooseRecords.Selection
import LooseRecords.Summary.Aggregate
import LooseRecords.Summary.Statistics
import LooseRecords.Text.Blank
import LooseRecords.Text.Case
import LooseRecords.Text.Case.CasedTable
import LooseRecords.Text.Case.IgnorableTable
import LooseRecords.Text.Case.LowerTable
import LooseRecords.Text.Case.UpperTable
import LooseRecords.Text.Collation
import LooseRecords.Text.HiddenTable
import LooseRecords.Text.Quoted
import LooseRecords.Text.Search
import LooseRecords.Value.Basic
import LooseRecords.Value.Display
import LooseRecords.Value.Json
import LooseRecords.Value.Written
import LooseRecords.Proofs.Edit.Positions
import LooseRecords.Proofs.Run.Session
import LooseRecords.Proofs.Summary.Groups
import LooseRecords.Proofs.Request.Outcome
import LooseRecords.Proofs.Edit.Duplicates
import LooseRecords.Proofs.Value.Display
import LooseRecords.Proofs.Number.Place
import LooseRecords.Proofs.Condition.Displayed
import LooseRecords.Proofs.Calendar.Date
import LooseRecords.Proofs.Calendar.Instant
import LooseRecords.Proofs.Query.Alike
import LooseRecords.Proofs.Load.Queries
import LooseRecords.Proofs.Condition.Reads
import LooseRecords.Proofs.Edit.Sequence
import LooseRecords.Proofs.Edit.CreatedRows
import LooseRecords.Proofs.Text.Lines
import LooseRecords.Proofs.Json.Apart
import LooseRecords.Proofs.Load.Lines
import LooseRecords.Proofs.Query.Search
import LooseRecords.Proofs.Load.Typed
import LooseRecords.Proofs.Json.Blank
import LooseRecords.Proofs.Edit.Payload
import LooseRecords.Proofs.Json.Spelling
import LooseRecords.Proofs.Request.RoundTrip
import LooseRecords.Proofs.Selection.Denoted
import LooseRecords.Proofs.Load.Headers
import LooseRecords.Proofs.Request.OwnParameters
import LooseRecords.Proofs.Json.Distinct
import LooseRecords.Proofs.Value.Distinct
import LooseRecords.Proofs.Run.DistinctNames
import LooseRecords.Proofs.Query.FieldOrder
import LooseRecords.Proofs.Query.Stable
import LooseRecords.Proofs.Edit.ListedKeys
import LooseRecords.Proofs.Number.Value
import LooseRecords.Proofs.Number.Fewest
import LooseRecords.Proofs.Number.Shown
import LooseRecords.Proofs.Condition.Opposite
import LooseRecords.Proofs.Load.BadLine
import LooseRecords.Proofs.Query.IgnoringCase
import LooseRecords.Proofs.Calendar.Counting
import LooseRecords.Proofs.Query.Composed
import LooseRecords.Proofs.Edit.DeletedAgain
import LooseRecords.Proofs.Query.Pages
import LooseRecords.Proofs.Number.Nearest
import LooseRecords.Proofs.Number.Spelled
import LooseRecords.Proofs.Json.Grammar
import LooseRecords.Proofs.Json.Recognized
import LooseRecords.Proofs.Value.Classified
import LooseRecords.Proofs.Number.Halfway
import LooseRecords.Proofs.Number.RadixLiteral
import LooseRecords.Proofs.Number.NumericText
import LooseRecords.Proofs.Number.Positional
import LooseRecords.Proofs.Calendar.Chronology
import LooseRecords.Proofs.Query.Chronological
import LooseRecords.Proofs.Value.Restored
import LooseRecords.Proofs.Value.Redisplayed
import LooseRecords.Proofs.Summary.Range
import LooseRecords.Proofs.Edit.BlankNames
