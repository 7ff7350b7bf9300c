import CardIndex.Decimal

namespace CardIndex

/-- The number of values that the 52 bits of a fraction field have. -/
abbrev Binary64.fractionSize : Nat := 0x10000000000000

/-- A finite number of double precision. The magnitude is its exponent field and its fraction field as one
number, so that larger magnitudes are larger values; from exponent field 2047 on there are no finite ones. -/
structure Binary64 where
  negative : Bool
  magnitude : Nat
  finite : magnitude < 2047 * Binary64.fractionSize
deriving DecidableEq

namespace Binary64

/-- The significand; the value is `significand · 2 ^ unit`. -/
def significand (x : Binary64) : Nat :=
  if x.magnitude < fractionSize then x.magnitude else fractionSize + x.magnitude % fractionSize

/-- The exponent of the value's last bit. -/
def unit (x : Binary64) : Int := max (x.magnitude / fractionSize : Nat) 1 - 1075

/-- The absolute value as a ratio of natural numbers. -/
def ratio (x : Binary64) : Nat × Nat :=
  (x.significand * Nat.pow 2 x.unit.toNat, Nat.pow 2 (-x.unit).toNat)

/-- The integer that the number is, if it is one. -/
def integer? (x : Binary64) : Option Int :=
  let (num, den) := x.ratio
  if num % den = 0 then
    let n : Int := (num / den : Nat)
    some (if x.negative then -n else n)
  else none

/-- The natural number nearest to a ratio; a half goes to the even neighbour. -/
def nearest (num den : Nat) : Nat :=
  let q := num / den
  let r := num % den
  if 2 * r < den ∨ (2 * r = den ∧ q % 2 = 0) then q else q + 1

/-- The exponent of the last bit kept of a ratio: 53 bits remain, fewer where the values have no finer grid. -/
def roundingUnit (num den : Nat) : Int :=
  let k : Int := (num.log2 : Int) - den.log2
  let e := if den * Nat.pow 2 k.toNat ≤ num * Nat.pow 2 (-k).toNat then k - 52 else k - 53
  max e (-1074)

/-- The magnitude nearest to a ratio. A significand that rounds up to 2 ^ 53 carries into the exponent field. -/
def roundRatio (num den : Nat) : Nat :=
  let e := roundingUnit num den
  (e + 1074).toNat * fractionSize + nearest (num * Nat.pow 2 (-e).toNat) (den * Nat.pow 2 e.toNat)

/-- The number of the given sign nearest to a ratio, if it is finite. -/
def ofRatio? (negative : Bool) (num den : Nat) : Option Binary64 :=
  let m := if num = 0 then 0 else roundRatio num den
  if h : m < 2047 * fractionSize then some ⟨negative, m, h⟩ else none

def zero (negative : Bool) : Binary64 := ⟨negative, 0, by decide⟩

/-- The number nearest to a decimal, if it is finite. Exponents far outside the range are settled without
writing out the power. -/
def ofDecimal? (d : Decimal) : Option Binary64 :=
  if d.mantissa = 0 ∨ d.exponent + d.mantissa.log2 < -400 then some (zero d.negative)
  else if d.exponent > 400 then none
  else ofRatio? d.negative (d.mantissa * Nat.pow 10 d.exponent.toNat) (Nat.pow 10 (-d.exponent).toNat)

/-- The number nearest to an integer, if it is finite. -/
def ofInt? (n : Int) : Option Binary64 := ofRatio? (n < 0) n.natAbs 1

/-- The number nearest to the product with the nearest number to `10 ^ k`, if it is finite. -/
def timesPowerOfTen? (x : Binary64) (k : Nat) : Option Binary64 := do
  let p ← ofRatio? false (Nat.pow 10 k) 1
  ofRatio? x.negative (x.ratio.1 * p.ratio.1) (x.ratio.2 * p.ratio.2)

/-- The number nearest to the quotient by the nearest number to `10 ^ k`. -/
def overPowerOfTen? (x : Binary64) (k : Nat) : Option Binary64 := do
  let p ← ofRatio? false (Nat.pow 10 k) 1
  ofRatio? x.negative (x.ratio.1 * p.ratio.2) (x.ratio.2 * p.ratio.1)

/-- The exponent of the largest power of ten that is finite. -/
abbrev maxPowerOfTen : Nat := 308

/-- Divides by `10 ^ k`, by at most the largest finite power at a time. -/
def scaleDown? (x : Binary64) (k : Nat) : Option Binary64 :=
  if _h : k ≤ maxPowerOfTen then overPowerOfTen? x k
  else if x.magnitude = 0 then some x
  else (overPowerOfTen? x maxPowerOfTen).bind fun y => scaleDown? y (k - maxPowerOfTen)
termination_by k
decreasing_by simp only [maxPowerOfTen] at *; omega

/-- Multiplies by `10 ^ k`; only zero can be multiplied by a power that is not finite. -/
def scaleUp? (x : Binary64) (k : Nat) : Option Binary64 :=
  if k ≤ maxPowerOfTen then timesPowerOfTen? x k else if x.magnitude = 0 then some x else none

/-- The number that `significand · 10 ^ exponent` is read as. The significand is rounded first and the product
or quotient again, so the result is near to the nearest number but need not be it. -/
def ofScaled? (negative : Bool) (significand : Nat) (exponent : Int) : Option Binary64 := do
  let x ← ofRatio? negative significand 1
  if 0 ≤ exponent then scaleUp? x exponent.toNat else scaleDown? x (-exponent).toNat

end Binary64

end CardIndex
