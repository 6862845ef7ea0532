/-!
# Metrics

Counters over all runs. Counters have 64 bits and wrap.
-/

namespace LooseRecords

/-- Counters over runs. -/
structure Metrics where
  /-- Runs that were started. -/
  runs : UInt64 := 0
  /-- Runs that failed, and selectors that no operation has. -/
  failures : UInt64 := 0
  /-- Records that runs started with. -/
  recordsIn : UInt64 := 0
  /-- Records that runs returned. -/
  recordsOut : UInt64 := 0
  /-- How long the last run took, in nanoseconds. -/
  elapsed : UInt64 := 0
  deriving DecidableEq, Repr

namespace Metrics

/-- Nanoseconds as a counter holds them: at most the greatest that it can hold. -/
def nanoseconds (elapsed : Nat) : UInt64 := (min elapsed (UInt64.size - 1)).toUInt64

/-- A run starts with some records. -/
def begin (m : Metrics) (records : Nat) : Metrics :=
  { m with runs := m.runs + 1, recordsIn := m.recordsIn + records.toUInt64 }

/-- A run returns some records. -/
def finish (m : Metrics) (records elapsed : Nat) : Metrics :=
  { m with recordsOut := m.recordsOut + records.toUInt64, elapsed := nanoseconds elapsed }

/-- A run fails. -/
def fail (m : Metrics) (elapsed : Nat) : Metrics :=
  { m with failures := m.failures + 1, elapsed := nanoseconds elapsed }

/-- How long the last run took, if there was one. -/
def lastElapsed? (m : Metrics) : Option UInt64 := if 0 < m.runs then some m.elapsed else none

/-! ## Text -/

/-- A count of units with the digits of a fraction of them, without trailing zeros. -/
def withFraction (whole places fraction : Nat) : String :=
  let digits := Nat.toDigits 10 fraction
  let padded := List.replicate (places - digits.length) '0' ++ digits
  let kept := (padded.reverse.dropWhile (· == '0')).reverse
  toString whole ++ if kept.isEmpty then "" else "." ++ String.ofList kept

/-- A duration in the greatest unit of which it has one. -/
def durationText (nanoseconds : Nat) : String :=
  if 1000000000 ≤ nanoseconds then
    withFraction (nanoseconds / 1000000000) 9 (nanoseconds % 1000000000) ++ "s"
  else if 1000000 ≤ nanoseconds then
    withFraction (nanoseconds / 1000000) 6 (nanoseconds % 1000000) ++ "ms"
  else if 1000 ≤ nanoseconds then
    withFraction (nanoseconds / 1000) 3 (nanoseconds % 1000) ++ "µs"
  else toString nanoseconds ++ "ns"

/-- The counters in one line. -/
def text (m : Metrics) : String :=
  let elapsed := match m.lastElapsed? with
    | some ns => "Some(" ++ durationText ns.toNat ++ ")"
    | none => "None"
  "runs=" ++ toString m.runs.toNat ++ ", failures=" ++ toString m.failures.toNat ++
    ", records_in=" ++ toString m.recordsIn.toNat ++ ", records_out=" ++
    toString m.recordsOut.toNat ++ ", last_elapsed=" ++ elapsed

end Metrics

end LooseRecords
