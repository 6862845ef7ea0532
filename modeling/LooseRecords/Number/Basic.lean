import LooseRecords.Number.Rank

/-!
# Numbers

A number is a double-precision value: not a number, an infinity of either sign, or a signed
finite magnitude named by its rank. Both zeros exist and differ as values; they take the same
place in the order.
-/

namespace LooseRecords

/-- A double-precision number. -/
inductive Number where
  | nan
  | infinite (negative : Bool)
  | finite (negative : Bool) (rank : Fin Rank.count)
  deriving DecidableEq

namespace Number

/-- The number with a sign and the rank of its magnitude; ranks from `Rank.count` on are infinite.
-/
def ofRank (negative : Bool) (rank : Nat) : Number :=
  if h : rank < Rank.count then .finite negative ⟨rank, h⟩ else .infinite negative

/-- Positive zero. -/
def zero : Number := ofRank false 0

/-- The number nearest to a signed quotient of naturals. -/
def ofRatio (negative : Bool) (num den : Nat) : Number :=
  ofRank negative (Rank.nearest (num * Rank.one) den)

/-- The number nearest to an integer; zero is positive. -/
def ofInt (i : Int) : Number := ofRatio (i < 0) i.natAbs 1

/-- The number nearest to a natural number. -/
def ofNat (n : Nat) : Number := ofRatio false n 1

instance : Inhabited Number := ⟨zero⟩

/-! ## Order -/

/-- The place of a number on the line of doubles, the same for both zeros; `nan` has none. -/
def place? : Number → Option Int
  | .nan => none
  | .infinite negative => some (if negative then -Rank.count else Rank.count)
  | .finite negative rank => some (if negative then -(rank.val : Int) else rank.val)

/-- The order of two numbers; `nan` is not ordered. -/
def compare? (a b : Number) : Option Ordering :=
  match a.place?, b.place? with
  | some x, some y => some (compare x y)
  | _, _ => none

/-- Strictly below; false if either number is `nan`. -/
def lt (a b : Number) : Bool := a.compare? b == some .lt

/-- Below or at the same place; false if either number is `nan`. -/
def le (a b : Number) : Bool := a.compare? b == some .lt || a.compare? b == some .eq

/-- Not a number. -/
def isNan : Number → Bool
  | .nan => true
  | _ => false

/-- Either zero. -/
def isZero (a : Number) : Bool := a.place? == some 0

/-- The smaller number; `nan` gives way to the other, and of two at one place the first is kept. -/
def min (a b : Number) : Number :=
  if a.isNan then b else if b.lt a then b else a

/-- The greater number; `nan` gives way to the other, and of two at one place the first is kept. -/
def max (a b : Number) : Number :=
  if a.isNan then b else if a.lt b then b else a

/-! ## Parts -/

/-- A finite number as an integer count of steps of `2 ^ (-1074)`. -/
def units? : Number → Option Int
  | .finite negative rank =>
    some (if negative then -(Rank.units rank.val : Int) else Rank.units rank.val)
  | _ => none

/-- A finite number without fraction, as that integer. -/
def toInt? : Number → Option Int
  | .finite negative rank =>
    if Rank.units rank.val % Rank.one = 0 then
      let whole := Rank.units rank.val / Rank.one
      some (if negative then -(whole : Int) else whole)
    else none
  | _ => none

/-! ## Bit patterns -/

/-- The weight of the sign bit in a 64-bit pattern: `2 ^ 63`. -/
def signWeight : Nat := 2048 * Rank.binade

/-- The number with a 64-bit pattern: the sign bit, then the rank of the magnitude. -/
def ofBits (bits : UInt64) : Number :=
  let negative := bits.toNat / signWeight == 1
  let rank := bits.toNat % signWeight
  if h : rank < Rank.count then .finite negative ⟨rank, h⟩
  else if rank = Rank.count then .infinite negative
  else .nan

/-- The 64-bit pattern of a number; `nan` is the positive quiet one. -/
def toBits : Number → UInt64
  | .nan => (Rank.count + Rank.binade / 2).toUInt64
  | .infinite negative => ((if negative then signWeight else 0) + Rank.count).toUInt64
  | .finite negative rank => ((if negative then signWeight else 0) + rank.val).toUInt64

end Number

end LooseRecords
