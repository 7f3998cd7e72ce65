/-
How large a number may be. A number is read as a double in three steps,
and each of them rounds: the leading digits that fit 64 bits, the power of
ten they stand at, and the product of the two. So a number a little above
the largest double may still be read, and one just below it may not.
-/

namespace LogPipeline.Json

/-- `n` with 53 significant bits, the nearest such number; of two that are
as near, the even one. -/
def roundToDouble (n : Nat) : Nat :=
  let unit := Nat.pow 2 (n.log2 + 1 - 53)
  let units := n / unit
  let rest := 2 * (n % unit)
  if unit < rest ∨ (unit = rest ∧ units % 2 = 1) then (units + 1) * unit else units * unit

/-- A number that has 53 bits keeps them all. -/
theorem roundToDouble_of_lt {n : Nat} (h : n < Nat.pow 2 53) : roundToDouble n = n := by
  have : n.log2 + 1 - 53 = 0 := by
    by_cases hn : n = 0
    · simp [hn]
    · have := (Nat.log2_lt hn).2 h
      omega
  simp [roundToDouble, this, Nat.mod_one]

/-- The leading digits of `m` that fit 64 bits, and where they stand if `m`
stands at `10 ^ e`. -/
def leadingDigits (m : Nat) (e : Int) : Nat × Int :=
  if m < 18446744073709551616 then (m, e) else leadingDigits (m / 10) (e + 1)
termination_by m
decreasing_by omega

/-- The number `m · 10 ^ e` is read as a finite double. -/
def inRange (m : Nat) (e : Int) : Bool :=
  let (digits, exponent) := leadingDigits m e
  if digits = 0 ∨ exponent < 0 then true
  else if 308 < exponent then false
  else roundToDouble digits * roundToDouble (Nat.pow 10 exponent.toNat)
    < Nat.pow 2 1024 - Nat.pow 2 970

end LogPipeline.Json
