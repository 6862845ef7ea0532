import LooseRecords.Text.Case

/-!
# Collation

The order in which texts are sorted: by their lower-case characters first, and by case only
between texts that agree in those, lower case in front of upper case.
-/

namespace LooseRecords

namespace Text

/-- The lower-case characters of a text, each one taken by itself. -/
def caseless (text : List Char) : List Char := text.flatMap lowerChar

/-- Of two characters the one that is not upper case comes first, then the lesser code point. -/
def compareCased (a b : Char) : Ordering :=
  (compare (isUpper a).toNat (isUpper b).toNat).then (compare a b)

/-- The order of two texts: that of their lower-case characters, then that of their case. -/
def collate (a b : List Char) : Ordering :=
  ((caseless a).compareLex compare (caseless b)).then (a.compareLex compareCased b)

end Text

end LooseRecords
