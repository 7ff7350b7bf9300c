import CardIndex.Binary64.Basic

namespace CardIndex.Binary64

/-- The exponent of the leading digit of a positive ratio, estimated from its binary logarithm. -/
def leadingExponent (num den : Nat) : Int :=
  let estimate := (((num.log2 : Int) - den.log2) * 30103).fdiv 100000
  let reaches (e : Int) : Bool := den * Nat.pow 10 e.toNat ≤ num * Nat.pow 10 (-e).toNat
  if reaches (estimate + 1) then estimate + 1 else if reaches estimate then estimate else estimate - 1

/-- The neighbours of a number among the multiples of `10 ^ exponent`, the nearer one first. -/
def neighbours (x : Binary64) (exponent : Int) : List Decimal :=
  let (num, den) := x.ratio
  let num := num * Nat.pow 10 (-exponent).toNat
  let den := den * Nat.pow 10 exponent.toNat
  let q := num / den
  let near := nearest num den
  let far := if near = q then q + 1 else q
  [Decimal.ofScaled x.negative near exponent, Decimal.ofScaled x.negative far exponent]

/-- All digits of a number. -/
def exactDecimal (x : Binary64) : Decimal :=
  Decimal.ofScaled x.negative (x.significand * Nat.pow 2 x.unit.toNat * Nat.pow 5 (-x.unit).toNat) (min x.unit 0)

/-- The decimal with the fewest digits that reads back as the number; of two, the nearer. -/
def shortest (x : Binary64) : Decimal :=
  if x.magnitude = 0 then ⟨x.negative, 0, 0⟩
  else
    let (num, den) := x.ratio
    let lead := leadingExponent num den
    let grids := (List.range 17).map fun (n : Nat) => neighbours x (lead - n)
    (grids.flatten.find? fun d => ofDecimal? d = some x).getD x.exactDecimal

end CardIndex.Binary64
