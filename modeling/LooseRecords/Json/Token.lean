import LooseRecords.Number.Numeral

/-!
# JSON tokens

A JSON text cut into tokens, character by character. `Token.scan?` refuses texts with a character
that no token can hold; whether the tokens fit together is not its concern.
-/

namespace LooseRecords

namespace Json

/-- A piece of a string literal: a character, or a code unit that an escape gives by its number. -/
inductive Piece where
  | char (c : Char)
  | unit (n : Nat)
  deriving DecidableEq

namespace Piece

/-- The character with a code point above U+FFFF that a pair of surrogates stands for. -/
def pair (high low : Nat) : Char := Char.ofNat (0x10000 + (high - 0xD800) * 0x400 + (low - 0xDC00))

/-- The characters that pieces stand for. Surrogates count only in pairs of a high and a low one. -/
def resolve? : List Piece → Option (List Char)
  | [] => some []
  | .char c :: pieces => (resolve? pieces).map (c :: ·)
  | .unit high :: .unit low :: pieces =>
    if 0xD800 ≤ high && high < 0xDC00 then
      if 0xDC00 ≤ low && low < 0xE000 then (resolve? pieces).map (pair high low :: ·) else none
    else if 0xDC00 ≤ high && high < 0xE000 then none
    else (resolve? (.unit low :: pieces)).map (Char.ofNat high :: ·)
  | .unit n :: pieces =>
    if 0xD800 ≤ n && n < 0xE000 then none else (resolve? pieces).map (Char.ofNat n :: ·)

end Piece

/-- A token of a JSON text. -/
inductive Token where
  | openArray
  | closeArray
  | openObject
  | closeObject
  | colon
  | comma
  | null
  | bool (b : Bool)
  | number (n : Numeral)
  | string (pieces : List Piece)
  deriving DecidableEq

namespace Token

/-- What the characters read last are part of; lists hold the latest first. -/
inductive Mode where
  /-- Between tokens. -/
  | between
  /-- In a word or a number. -/
  | word (read : List Char)
  /-- In a string. -/
  | string (pieces : List Piece)
  /-- After a backslash in a string. -/
  | escape (pieces : List Piece)
  /-- In a four-digit escape, after `digits` digits that make up `value`. -/
  | code (pieces : List Piece) (digits value : Nat)

/-- A scan under way: the mode it is in, and the tokens found so far, the latest first. -/
structure Scan where
  mode : Mode
  tokens : List Token

/-- The blanks of JSON. -/
def isBlank (c : Char) : Bool := c = ' ' || c = '\t' || c = '\n' || c = '\r'

/-- The token that a single character is. -/
def mark? (c : Char) : Option Token :=
  if c = '[' then some .openArray
  else if c = ']' then some .closeArray
  else if c = '{' then some .openObject
  else if c = '}' then some .closeObject
  else if c = ':' then some .colon
  else if c = ',' then some .comma
  else none

/-- The token that a word or a number is. -/
def word? (word : List Char) : Option Token :=
  if word = "null".toList then some .null
  else if word = "true".toList then some (.bool true)
  else if word = "false".toList then some (.bool false)
  else ((Numeral.ofChars? word).filter Numeral.isJson).map .number

/-- The character that a backslash followed by another character stands for. -/
def unescape? (c : Char) : Option Char :=
  if c = '"' || c = '\\' || c = '/' then some c
  else if c = 'b' then some '\x08'
  else if c = 'f' then some '\x0c'
  else if c = 'n' then some '\n'
  else if c = 'r' then some '\r'
  else if c = 't' then some '\t'
  else none

/-- The value of a hexadecimal digit. -/
def hexValue? (c : Char) : Option Nat :=
  let n := c.toNat
  if 48 ≤ n && n ≤ 57 then some (n - 48)
  else if 97 ≤ n && n ≤ 102 then some (n - 87)
  else if 65 ≤ n && n ≤ 70 then some (n - 55)
  else none

namespace Scan

/-- A character between two tokens: a blank, a token of its own, or the start of a longer one. -/
def begin (tokens : List Token) (c : Char) : Scan :=
  if isBlank c then ⟨.between, tokens⟩
  else if c = '"' then ⟨.string [], tokens⟩
  else match mark? c with
    | some token => ⟨.between, token :: tokens⟩
    | none => ⟨.word [c], tokens⟩

/-- The character ends a word or a number in front of it. -/
def endsWord (c : Char) : Bool := isBlank c || c = '"' || (mark? c).isSome

/-- The scan after one more character. -/
def step (scan : Scan) (c : Char) : Option Scan :=
  match scan.mode with
  | .between => some (begin scan.tokens c)
  | .word read =>
    if endsWord c then (word? read.reverse).map fun token => begin (token :: scan.tokens) c
    else some ⟨.word (c :: read), scan.tokens⟩
  | .string pieces =>
    if c = '"' then some ⟨.between, .string pieces.reverse :: scan.tokens⟩
    else if c = '\\' then some ⟨.escape pieces, scan.tokens⟩
    else if c.toNat < 0x20 then none
    else some ⟨.string (.char c :: pieces), scan.tokens⟩
  | .escape pieces =>
    if c = 'u' then some ⟨.code pieces 0 0, scan.tokens⟩
    else (unescape? c).map fun d => ⟨.string (.char d :: pieces), scan.tokens⟩
  | .code pieces digits value =>
    (hexValue? c).map fun d =>
      if digits = 3 then ⟨.string (.unit (16 * value + d) :: pieces), scan.tokens⟩
      else ⟨.code pieces (digits + 1) (16 * value + d), scan.tokens⟩

/-- The tokens of a scan at the end of the text. -/
def finish (scan : Scan) : Option (List Token) :=
  match scan.mode with
  | .between => some scan.tokens.reverse
  | .word read => (word? read.reverse).map fun token => (token :: scan.tokens).reverse
  | _ => none

end Scan

/-- The tokens of a text. -/
def scan? (text : List Char) : Option (List Token) :=
  (text.foldlM Scan.step ⟨.between, []⟩).bind Scan.finish

end Token

end Json

end LooseRecords
