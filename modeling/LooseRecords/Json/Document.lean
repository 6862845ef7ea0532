import LooseRecords.Json.Basic
import LooseRecords.Json.Token
import LooseRecords.Number.Scaled

/-!
# JSON documents

A document is a JSON text taken apart by the grammar alone: numbers as they are written, strings
in pieces, members with their repetitions. What it stands for is decided afterwards, by
`Document.value?`, since parts of a document that nobody asks for need not stand for anything.
-/

namespace LooseRecords

namespace Json

/-- A JSON text, taken apart. -/
inductive Document where
  | null
  | bool (b : Bool)
  | number (n : Numeral)
  | string (pieces : List Piece)
  | array (items : List Document)
  | object (members : List (List Piece × Document))

namespace Document

/-! ## From tokens -/

/-- A container that is still open, with what it holds so far, the latest first. -/
inductive Frame where
  | array (items : List Document)
  /-- The member with this name is under way. -/
  | object (members : List (List Piece × Document)) (name : List Piece)

/-- What may come next; the open containers are listed from the innermost outwards. -/
inductive State where
  /-- A value. -/
  | value (frames : List Frame)
  /-- The first item of an array, or its end. -/
  | firstItem (frames : List Frame)
  /-- The first name of an object, or its end. -/
  | firstName (frames : List Frame)
  /-- The name of a member. -/
  | nextName (members : List (List Piece × Document)) (frames : List Frame)
  /-- The colon after a name. -/
  | colon (members : List (List Piece × Document)) (name : List Piece) (frames : List Frame)
  /-- A comma after an item, or the end of the array. -/
  | afterItem (items : List Document) (frames : List Frame)
  /-- A comma after a member, or the end of the object. -/
  | afterMember (members : List (List Piece × Document)) (frames : List Frame)
  /-- Nothing. -/
  | done (document : Document)

namespace State

/-- The state after a value is complete. -/
def complete (document : Document) : List Frame → State
  | [] => .done document
  | .array items :: frames => .afterItem (document :: items) frames
  | .object members name :: frames => .afterMember ((name, document) :: members) frames

/-- The state after a token that starts a value. -/
def startValue (frames : List Frame) : Token → Option State
  | .null => some (complete .null frames)
  | .bool b => some (complete (.bool b) frames)
  | .number n => some (complete (.number n) frames)
  | .string pieces => some (complete (.string pieces) frames)
  | .openArray => some (.firstItem frames)
  | .openObject => some (.firstName frames)
  | _ => none

/-- The state after one more token. -/
def step : State → Token → Option State
  | .value frames, token => startValue frames token
  | .firstItem frames, .closeArray => some (complete (.array []) frames)
  | .firstItem frames, token => startValue (.array [] :: frames) token
  | .firstName frames, .closeObject => some (complete (.object []) frames)
  | .firstName frames, .string name => some (.colon [] name frames)
  | .nextName members frames, .string name => some (.colon members name frames)
  | .colon members name frames, .colon => some (.value (.object members name :: frames))
  | .afterItem items frames, .comma => some (.value (.array items :: frames))
  | .afterItem items frames, .closeArray => some (complete (.array items.reverse) frames)
  | .afterMember members frames, .comma => some (.nextName members frames)
  | .afterMember members frames, .closeObject => some (complete (.object members.reverse) frames)
  | _, _ => none

/-- The document of a state in which nothing more may come. -/
def document? : State → Option Document
  | .done document => some document
  | _ => none

end State

/-- The document that tokens make up. -/
def ofTokens? (tokens : List Token) : Option Document :=
  (tokens.foldlM State.step (.value [])).bind State.document?

/-- The document that a text is. -/
def read? (text : List Char) : Option Document := (Token.scan? text).bind ofTokens?

/-! ## Values -/

/-- The string that a string literal stands for. -/
def resolve? (pieces : List Piece) : Option String := (Piece.resolve? pieces).map String.ofList

/-- The value of a written number: an integer if it is written as one and has 64 bits with or
without a sign, else the double that is computed for it. Numbers that are too great for this have no
value. -/
def numberValue? (n : Numeral) : Option Json :=
  match n.toInt? with
  | some i =>
    if Int64.minValue.toInt ≤ i && i < UInt64.size then some (.integer i) else finite?
  | none => finite?
where
  /-- The double that is computed, unless it is infinite. -/
  finite? : Option Json :=
    match n.scaled with
    | .finite negative rank => some (.double (.finite negative rank))
    | _ => none

mutual

/-- The value of a document in which at most `depth` containers may lie within each other. A name
that is repeated in an object takes its last value and its first place. -/
def value? (depth : Nat) : Document → Option Json
  | .null => some .null
  | .bool b => some (.bool b)
  | .number n => numberValue? n
  | .string pieces => (resolve? pieces).map .string
  | .array items =>
    if depth = 0 then none else (itemValues? (depth - 1) items).map .array
  | .object members =>
    if depth = 0 then none
    else (memberValues? (depth - 1) members).map fun entries => .object (Fields.ofList entries)

/-- The values of items. -/
def itemValues? (depth : Nat) : List Document → Option (List Json)
  | [] => some []
  | item :: items => do
    let first ← value? depth item
    let rest ← itemValues? depth items
    some (first :: rest)

/-- The names and values of members. -/
def memberValues? (depth : Nat) : List (List Piece × Document) → Option (List (String × Json))
  | [] => some []
  | (name, document) :: members => do
    let name ← resolve? name
    let first ← value? depth document
    let rest ← memberValues? depth members
    some ((name, first) :: rest)

end

end Document

/-- How many containers of a text may lie within each other. -/
def depthLimit : Nat := 127

/-- The value that a JSON text stands for. -/
def read? (text : List Char) : Option Json :=
  (Document.read? text).bind (Document.value? depthLimit)

end Json

end LooseRecords
