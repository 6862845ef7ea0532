import LooseRecords.Text.Case.CasedTable
import LooseRecords.Text.Case.IgnorableTable
import LooseRecords.Text.Case.LowerTable
import LooseRecords.Text.Case.UpperTable

/-!
# Letter case

Case properties of characters, and the lower-case form of a text. A capital sigma becomes a final
sigma at the end of a word, so a text is not lower-cased character by character.
-/

namespace LooseRecords

namespace Text

/-- A code point lies in one of the ranges. -/
def inRanges (ranges : List (Nat × Nat)) (n : Nat) : Bool :=
  ranges.any fun (first, last) => first ≤ n && n ≤ last

/-- The property Uppercase. -/
def isUpper (c : Char) : Bool :=
  upperBands.any fun (first, last, step) =>
    first ≤ c.toNat && c.toNat ≤ last && (c.toNat - first) % step == 0

/-- The property Cased. -/
def isCased (c : Char) : Bool := inRanges casedRanges c.toNat

/-- The property Case_Ignorable. -/
def isIgnorable (c : Char) : Bool := inRanges ignorableRanges c.toNat

/-- The lower-case form of a single character. All have one character, save that of the capital
dotted i, which keeps its dot as a mark. -/
def lowerChar (c : Char) : List Char :=
  if c.toNat < 0x80 then [c.toLower]
  else if c = 'İ' then ['i', '\u0307']
  else
    let band := lowerBands.find? fun (first, last, step, _) =>
      first ≤ c.toNat && c.toNat ≤ last && (c.toNat - first) % step == 0
    match band with
    | some (_, _, _, distance) => [Char.ofNat ((c.toNat : Int) + distance).toNat]
    | none => [c]

/-- The first character that is not passed over is cased. -/
def casedFirst (text : List Char) : Bool :=
  match text.dropWhile isIgnorable with
  | c :: _ => isCased c
  | [] => false

/-- The lower-case form of a text. `before` says whether the last character in front of it that is
not passed over is cased; a capital sigma is final if it has such a character in front of it and
none behind it. -/
def lowerAfter (before : Bool) : List Char → List Char
  | [] => []
  | c :: rest =>
    let low := if c = 'Σ' then [if before && !casedFirst rest then 'ς' else 'σ'] else lowerChar c
    low ++ lowerAfter (if isIgnorable c then before else isCased c) rest

/-- The lower-case form of a text. -/
def lower (text : List Char) : List Char := lowerAfter false text

end Text

end LooseRecords
