import LooseRecords.Text.Case
import LooseRecords.Text.HiddenTable

/-!
# Quoted texts

A text between quotes, as run records show it: quotes and backslashes are escaped, and characters
that show no picture of their own are given by their code point.
-/

namespace LooseRecords

namespace Text

/-- A character as it stands between quotes. -/
def quotedChar (c : Char) : List Char :=
  if c = '"' then ['\\', '"']
  else if c = '\\' then ['\\', '\\']
  else if c = '\t' then ['\\', 't']
  else if c = '\n' then ['\\', 'n']
  else if c = '\r' then ['\\', 'r']
  else if c.toNat = 0 then ['\\', '0']
  else if c.toNat < 0x20 || (0x7F ≤ c.toNat && inRanges hiddenRanges c.toNat) then
    ['\\', 'u', '{'] ++ Nat.toDigits 16 c.toNat ++ ['}']
  else [c]

/-- A text between quotes. -/
def quoted (text : List Char) : List Char := '"' :: (text.flatMap quotedChar ++ ['"'])

end Text

end LooseRecords
