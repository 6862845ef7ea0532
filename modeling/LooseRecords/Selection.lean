import LooseRecords.Number.Numeral
import LooseRecords.Text.Blank

/-!
# Selections

A selection names positions of a sequence: single ones and ranges with both ends, between commas,
such as `0-2,5`. Parts that name nothing are passed over, and so are positions that do not exist.
Positions have 63 bits: a greater number means the greatest position, and of a sequence that goes
on beyond that position nothing is selected.
-/

namespace LooseRecords

namespace Selection

/-- The greatest position that a selection can name: `2 ^ 63 - 1`. -/
def greatest : Nat := 9223372036854775807

/-- Positions from the first to the last, both among them. -/
structure Span where
  first : Nat
  last : Nat
  deriving DecidableEq, Repr

/-- The position that the number at the start of a text means, after blanks and a plus sign; what
follows the number is ignored. -/
def leadingPosition? (text : List Char) : Option Nat :=
  let text := Text.trim text
  let unsigned := if text.head? = some '+' then text.drop 1 else text
  let digits := unsigned.takeWhile Char.isDigit
  if digits.isEmpty then none else some (min (Numeral.natural digits) greatest)

/-- The span that a part of a selection names. A part with hyphens runs from the number in front
of the first one to the number behind it; what follows a second hyphen is ignored. -/
def span? (part : List Char) : Option Span :=
  match part.splitOn '-' with
  | [single] => (leadingPosition? single).map fun n => ⟨n, n⟩
  | first :: last :: _ =>
    match leadingPosition? first, leadingPosition? last with
    | some first, some last => some ⟨first, last⟩
    | _, _ => none
  | [] => none

namespace Span

/-- The position lies in the span. -/
def contains (s : Span) (i : Nat) : Bool := s.first ≤ i && i ≤ s.last

/-- The part of a span below a length, if there is any. A length that leaves positions without a
name has none. -/
def below? (length : Nat) (s : Span) : Option Span :=
  let last := min s.last (length - 1)
  if s.first ≤ last && 0 < length && length ≤ greatest + 1 then some ⟨s.first, last⟩ else none

/-- The positions of a span in order. -/
def positions (s : Span) : List Nat := List.range' s.first (s.last + 1 - s.first)

/-- Put a span into an ascending list of spans that lie apart, uniting it with those it meets. -/
def unite (s : Span) : List Span → List Span
  | [] => [s]
  | t :: rest =>
    if s.last < t.first then s :: t :: rest
    else if t.last < s.first then t :: unite s rest
    else unite ⟨min s.first t.first, max s.last t.last⟩ rest

end Span

/-- The spans that a selection names. -/
def spans (selection : String) : List Span := (Text.listed selection.toList).filterMap span?

/-- The selected positions below a length, in ascending order. -/
def positions (selection : String) (length : Nat) : List Nat :=
  let parts := (spans selection).filterMap (Span.below? length)
  (parts.foldl (fun apart s => s.unite apart) []).flatMap Span.positions

end Selection

end LooseRecords
