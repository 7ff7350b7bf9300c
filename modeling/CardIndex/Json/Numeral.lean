import CardIndex.Binary64.Shortest

namespace CardIndex.Json

/-- A number as a JSON text writes it: an integer of 64 bits without point and exponent, or the decimal
`significand · 10 ^ exponent`. Minus zero is a decimal, because no integer is it. -/
inductive Numeral
  | integer (n : Int)
  | decimal (negative : Bool) (significand : Nat) (exponent : Int)
deriving DecidableEq, Inhabited

namespace Numeral

/-- The digits at the start of a list that a significand of 64 bits can still take up. -/
def takeUp (significand : Nat) : List Char → Nat × List Char
  | [] => (significand, [])
  | c :: cs =>
    let next := significand * 10 + (c.toNat - '0'.toNat)
    if next < UInt64.size then takeUp next cs else (significand, c :: cs)

/-- The decimal with the given digits before the point, behind it and the given exponent. Digits that the
significand has no room for are dropped; those before the point still count as places. -/
def ofDigits (negative : Bool) (whole fraction : List Char) (exponent : Int) : Numeral :=
  let (significand, skipped) := takeUp 0 whole
  let (significand, dropped) := takeUp significand fraction
  decimal negative significand (exponent + skipped.length - (fraction.length - dropped.length : Nat))

/-- An integer, or a decimal if 64 bits do not hold it. -/
def ofWhole (negative : Bool) (whole : List Char) : Numeral :=
  let n := Nat.ofDigitChars 10 whole 0
  if negative then
    if 0 < n ∧ Int64.minValue.toInt ≤ -n then integer (-n) else ofDigits true whole [] 0
  else if n < UInt64.size then integer n else ofDigits false whole [] 0

/-- Reads a number by the JSON grammar: no plus sign, no leading zero, digits on both sides of a point. -/
def ofText? (text : List Char) : Option Numeral :=
  let (negative, body) := match text with
    | '-' :: cs => (true, cs)
    | cs => (false, cs)
  let (whole, rest) := Decimal.takeDigits body
  if whole = [] ∨ (whole.head? = some '0' ∧ whole ≠ ['0']) then none
  else match rest with
    | [] => some (ofWhole negative whole)
    | '.' :: cs =>
      let (fraction, rest) := Decimal.takeDigits cs
      if fraction = [] then none
      else (Decimal.exponentOf? rest).map (ofDigits negative whole fraction ·)
    | rest => (Decimal.exponentOf? rest).map (ofDigits negative whole [] ·)

def naturalText (n : Nat) : List Char := Nat.toDigits 10 n

def integerText (n : Int) : List Char :=
  if n < 0 then '-' :: naturalText n.natAbs else naturalText n.natAbs

def zeros (n : Nat) : List Char := List.replicate n '0'

/-- Writes a decimal without its sign. With `point` digits before the point it is written out if it has a
fraction and is from 1e-5 to below 1e16; otherwise one digit stands before the point, and an exponent behind. -/
def magnitudeText (significand : Nat) (exponent : Int) : List Char :=
  let digits := naturalText significand
  let point := digits.length + exponent
  if exponent < 0 ∧ 0 < point ∧ point ≤ 16 then digits.take point.toNat ++ '.' :: digits.drop point.toNat
  else if exponent < 0 ∧ -5 < point ∧ point ≤ 0 then '0' :: '.' :: zeros (-point).toNat ++ digits
  else
    let fraction := if digits.length = 1 then [] else '.' :: digits.drop 1
    let sign := if point - 1 < 0 then '-' else '+'
    digits.take 1 ++ fraction ++ 'e' :: sign :: naturalText (point - 1).natAbs

def text : Numeral → List Char
  | integer n => integerText n
  | decimal negative significand exponent =>
    (if negative then ['-'] else []) ++ magnitudeText significand exponent

/-- The numeral of a float: its shortest digits. Below 1e16 an integer gets the fraction `.0`. -/
def ofBinary64 (x : Binary64) : Numeral :=
  let d := x.shortest
  if 0 ≤ d.exponent ∧ (naturalText d.mantissa).length + d.exponent ≤ 16 then
    decimal d.negative (d.mantissa * Nat.pow 10 (d.exponent + 1).toNat) (-1)
  else decimal d.negative d.mantissa d.exponent

/-- The number of double precision that the numeral is read as, if it is finite. -/
def toBinary64? : Numeral → Option Binary64
  | integer n => Binary64.ofInt? n
  | decimal negative significand exponent => Binary64.ofScaled? negative significand exponent

end Numeral

end CardIndex.Json
