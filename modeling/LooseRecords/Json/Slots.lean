import LooseRecords.Json.Document

/-!
# Slots

How a document fills the places of a structure that names its parts. An object fills them by name:
unknown names are passed over with whatever they hold, and a known name may come once. An array
fills them in order and may end early. Places that stay open take a value of their own.
-/

namespace LooseRecords

namespace Json

namespace Document

/-- The documents that fill the named places. -/
def slots? (places : List String) : Document → Option (Fields Document)
  | .object members => do
    let named ← members.mapM fun (name, document) => (resolve? name).map fun name => (name, document)
    let known := named.filter fun entry => places.contains entry.1
    if (Fields.names known).Nodup then some known else none
  | .array items => if items.length ≤ places.length then some (places.zip items) else none
  | _ => none

/-- What fills a place, or `fallback` if nothing does. -/
def slot {α : Type} (slots : Fields Document) (place : String) (read : Document → Option α)
    (fallback : α) : Option α :=
  match Fields.get? slots place with
  | some document => read document
  | none => some fallback

/-- A string. -/
def string? : Document → Option String
  | .string pieces => resolve? pieces
  | _ => none

/-- A string, or null for none. -/
def optionalString? : Document → Option (Option String)
  | .null => some none
  | document => (string? document).map some

/-- A boolean. -/
def bool? : Document → Option Bool
  | .bool b => some b
  | _ => none

/-- An integer of 64 bits, written as one. -/
def int64? : Document → Option Int64
  | .number n =>
    match n.toInt? with
    | some i =>
      if Int64.minValue.toInt ≤ i && i ≤ Int64.maxValue.toInt then some (Int64.ofInt i) else none
    | none => none
  | _ => none

/-- A list, item by item. -/
def list? {α : Type} (read : Document → Option α) : Document → Option (List α)
  | .array items => items.mapM read
  | _ => none

/-- A named choice: its name, or an object with the name alone and nothing in it. -/
def choice? : Document → Option String
  | .string pieces => resolve? pieces
  | .object [(name, .null)] => resolve? name
  | _ => none

end Document

end Json

end LooseRecords
