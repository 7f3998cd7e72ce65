/-
Counters of events on their way through the pipeline, and the share of
deliveries that failed.
-/

namespace LogPipeline

structure Metrics where
  /-- Events handed over for delivery. -/
  published : Nat
  /-- Events that every appender took. -/
  delivered : Nat
  /-- Events that some appender failed on. -/
  failures : Nat
  /-- Events that the filters discarded. -/
  filtered : Nat
  /-- Events offered after shutdown began. -/
  rejected : Nat
  /-- Times a producer waited for a free slot. -/
  waits : Nat
  /-- Events dispatched as the last of a batch. -/
  endOfBatch : Nat
  deriving DecidableEq, Inhabited

/-- The counters by name. -/
inductive Counter where
  | published
  | delivered
  | failures
  | filtered
  | rejected
  | waits
  | endOfBatch
  deriving DecidableEq

namespace Metrics

def zero : Metrics := ⟨0, 0, 0, 0, 0, 0, 0⟩

def get (m : Metrics) : Counter → Nat
  | .published => m.published
  | .delivered => m.delivered
  | .failures => m.failures
  | .filtered => m.filtered
  | .rejected => m.rejected
  | .waits => m.waits
  | .endOfBatch => m.endOfBatch

/-- Count one more event. -/
def count (m : Metrics) : Counter → Metrics
  | .published => { m with published := m.published + 1 }
  | .delivered => { m with delivered := m.delivered + 1 }
  | .failures => { m with failures := m.failures + 1 }
  | .filtered => { m with filtered := m.filtered + 1 }
  | .rejected => { m with rejected := m.rejected + 1 }
  | .waits => { m with waits := m.waits + 1 }
  | .endOfBatch => { m with endOfBatch := m.endOfBatch + 1 }

/-- Every counter, in the order of the fields. -/
def toList (m : Metrics) : List Nat :=
  [m.published, m.delivered, m.failures, m.filtered, m.rejected, m.waits, m.endOfBatch]

/-- The percentage of processed events that failed; zero if there are none. -/
def failureRate (m : Metrics) : Float :=
  let failed := m.failures.toFloat
  let total := m.delivered.toFloat + failed
  if total == 0.0 then 0.0 else failed / total * 100.0

end Metrics

-- ==================================================== decimals of rates

/-- The double with these bits, as the quotient of two natural numbers,
if it is finite and not negative. -/
def ratioOfBits (bits : UInt64) : Nat × Nat :=
  let exponent := bits.toNat / Nat.pow 2 52 % Nat.pow 2 11
  let fraction := bits.toNat % Nat.pow 2 52
  let significand := if exponent = 0 then fraction else fraction + Nat.pow 2 52
  let power : Int := (max exponent 1 : Nat) - 1075
  if 0 ≤ power then (significand * Nat.pow 2 power.toNat, 1)
  else (significand, Nat.pow 2 (-power).toNat)

/-- `num / den` to the nearest whole number; a half goes to the even one. -/
def roundHalfEven (num den : Nat) : Nat :=
  let q := num / den
  let r := num % den
  if den < 2 * r ∨ (2 * r = den ∧ q % 2 = 1) then q + 1 else q

/-- A rate with two decimals. -/
def twoDecimals (x : Float) : String :=
  let (num, den) := ratioOfBits x.toBits
  let cents := roundHalfEven (num * 100) den
  let rest := cents % 100
  Nat.repr (cents / 100) ++ "." ++ (if rest < 10 then "0" else "") ++ Nat.repr rest

end LogPipeline
