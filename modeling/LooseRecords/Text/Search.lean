import LooseRecords.Text.Case

/-!
# Texts within texts

Whether a text occurs in another, and the folding that makes such questions blind to letter case.
-/

namespace LooseRecords

namespace Text

/-- `needle` occurs in `hay` as one piece. -/
def occursIn (needle : List Char) : List Char → Bool
  | [] => needle.isEmpty
  | c :: rest => needle.isPrefixOf (c :: rest) || occursIn needle rest

/-- The text itself where case matters, its lower-case form where it does not. -/
def fold (caseSensitive : Bool) (text : List Char) : List Char :=
  if caseSensitive then text else lower text

end Text

end LooseRecords
