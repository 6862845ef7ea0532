import LooseRecords.Json.Basic
import LooseRecords.Number.Layout

/-!
# JSON text

The compact text of a JSON value: no blanks, members in order, and as few escapes as JSON allows.
-/

namespace LooseRecords

namespace Json

/-- Doubles in JSON are positional from `10 ^ (-5)` up to `10 ^ 16`, always show a fraction or an
exponent, and take the even one of two equally near digit sequences. -/
def doubleLayout : Number.Layout where
  least := -4
  greatest := 16
  keepsFraction := true
  tie := .even

/-- The text of a double. Numbers that are not finite have none and are written `null`. -/
def doubleText : Number → List Char
  | .finite negative rank =>
    Number.signChars negative ++
      if rank.val = 0 then ['0', '.', '0'] else doubleLayout.magnitude rank.val
  | _ => "null".toList

/-- The decimal text of an integer. -/
def integerText (i : Int) : List Char :=
  Number.signChars (i < 0) ++ Nat.toDigits 10 i.natAbs

/-- A hexadecimal digit in lower case. -/
def hexDigit (n : Nat) : Char := Nat.digitChar (n % 16)

/-- A character as it stands in a JSON string. -/
def escape (c : Char) : List Char :=
  if c = '"' then ['\\', '"']
  else if c = '\\' then ['\\', '\\']
  else if c.toNat = 8 then ['\\', 'b']
  else if c.toNat = 9 then ['\\', 't']
  else if c.toNat = 10 then ['\\', 'n']
  else if c.toNat = 12 then ['\\', 'f']
  else if c.toNat = 13 then ['\\', 'r']
  else if c.toNat < 0x20 then ['\\', 'u', '0', '0', hexDigit (c.toNat / 16), hexDigit c.toNat]
  else [c]

/-- The text of a string. -/
def stringText (s : String) : List Char := '"' :: (s.toList.flatMap escape ++ ['"'])

mutual

/-- The compact text of a JSON value. -/
def text : Json → List Char
  | .null => "null".toList
  | .bool true => "true".toList
  | .bool false => "false".toList
  | .integer i => integerText i
  | .double n => doubleText n
  | .string s => stringText s
  | .array items => '[' :: (itemsText items ++ [']'])
  | .object members => '{' :: (membersText members ++ ['}'])

/-- The texts of items, with commas between them. -/
def itemsText : List Json → List Char
  | [] => []
  | [item] => text item
  | item :: items => text item ++ ',' :: itemsText items

/-- The texts of members, with commas between them. -/
def membersText : List (String × Json) → List Char
  | [] => []
  | [(name, value)] => stringText name ++ ':' :: text value
  | (name, value) :: members => stringText name ++ ':' :: (text value ++ ',' :: membersText members)

end

end Json

end LooseRecords
