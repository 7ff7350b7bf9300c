namespace CardIndex

/-- A number in scientific form, `mantissa · 10 ^ exponent`, with a sign that zero has too. -/
structure Decimal where
  negative : Bool
  mantissa : Nat
  exponent : Int
deriving DecidableEq, Inhabited

namespace Decimal

/-- Moves the trailing zeros of the mantissa into the exponent, so that each number has one form. -/
def reduce (mantissa : Nat) (exponent : Int) : Nat × Int :=
  if h : mantissa = 0 then (0, 0)
  else if mantissa % 10 = 0 then reduce (mantissa / 10) (exponent + 1)
  else (mantissa, exponent)
termination_by mantissa
decreasing_by omega

/-- The number with the given sign and value, in its one form. -/
def ofScaled (negative : Bool) (mantissa : Nat) (exponent : Int) : Decimal :=
  let (m, e) := reduce mantissa exponent
  ⟨negative, m, e⟩

/-- The number written by digits before the point, digits after it and a power of ten. -/
def ofDigits (negative : Bool) (whole fraction : List Char) (exponent : Int) : Decimal :=
  ofScaled negative (Nat.ofDigitChars 10 (whole ++ fraction) 0) (exponent - fraction.length)

/-- Takes an optional sign off a text: whether it is a minus, and the rest. -/
def takeSign : List Char → Bool × List Char
  | '-' :: cs => (true, cs)
  | '+' :: cs => (false, cs)
  | cs => (false, cs)

/-- The digits at the start of a text, and the rest. -/
def takeDigits (cs : List Char) : List Char × List Char :=
  (cs.takeWhile Char.isDigit, cs.dropWhile Char.isDigit)

/-- The exponent that ends a number: nothing, which is zero, or the mark with an integer. -/
def exponentOf? : List Char → Option Int
  | [] => some 0
  | c :: cs =>
    if c = 'e' ∨ c = 'E' then
      let (negative, digits) := takeSign cs
      if digits ≠ [] ∧ digits.all Char.isDigit then
        let n : Int := Nat.ofDigitChars 10 digits 0
        some (if negative then -n else n)
      else none
    else none

/-- Reads a number: an optional sign, digits with at most one point among them, an optional exponent. -/
def ofText? (text : List Char) : Option Decimal :=
  let (negative, body) := takeSign text
  let (whole, rest) := takeDigits body
  let (fraction, rest) := match rest with
    | '.' :: cs => takeDigits cs
    | cs => ([], cs)
  if whole = [] ∧ fraction = [] then none
  else (exponentOf? rest).map (ofDigits negative whole fraction ·)

end Decimal

end CardIndex
