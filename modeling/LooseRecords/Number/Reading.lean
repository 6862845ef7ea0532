import LooseRecords.Number.Arithmetic
import LooseRecords.Number.Numeral
import LooseRecords.Text.Blank

/-!
# Reading texts as numbers

The number that a text stands for where a number is wanted: a decimal numeral, a radix literal or
an infinity, with blanks around it. The blank text stands for zero, and any other text for `nan`.
-/

namespace LooseRecords

namespace Number

/-- The value of a digit below `radix`; letters of either case follow nine. -/
def digit? (radix : Nat) (c : Char) : Option Nat :=
  let n := c.toNat
  let value :=
    if c.isDigit then some (n - 48)
    else if 97 ≤ n && n ≤ 122 then some (n - 87)
    else if 65 ≤ n && n ≤ 90 then some (n - 55)
    else none
  value.filter (· < radix)

/-- Digits accumulated from left to right, each step rounded to the nearest number. -/
def ofDigits (radix : Nat) (digits : List Char) : Number :=
  let step (acc : Number) (c : Char) : Option Number :=
    (digit? radix c).map fun d => (acc.mul (ofNat radix)).add (ofNat d)
  (digits.foldlM step zero).getD .nan

/-- The radix that the start of a literal announces, and the literal's digits. -/
def radixLiteral? : List Char → Option (Nat × List Char)
  | '0' :: c :: digits =>
    if c = 'x' || c = 'X' then some (16, digits)
    else if c = 'o' || c = 'O' then some (8, digits)
    else if c = 'b' || c = 'B' then some (2, digits)
    else none
  | _ => none

/-- The number that a text without blanks around it stands for. -/
def readTrimmed (text : List Char) : Number :=
  if text = [] then zero
  else if text = "Infinity".toList || text = "+Infinity".toList then .infinite false
  else if text = "-Infinity".toList then .infinite true
  else match radixLiteral? text with
    | some (radix, digits) => if digits = [] then .nan else ofDigits radix digits
    | none =>
      match Numeral.ofChars? text with
      | some numeral => if numeral.hasDigits then numeral.number else .nan
      | none => .nan

/-- The number that a text stands for. -/
def read (text : List Char) : Number := readTrimmed (Text.trim text)

end Number

end LooseRecords
