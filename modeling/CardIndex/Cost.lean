import CardIndex.Distinct
import CardIndex.Text.Digit

namespace CardIndex

/-- The price of playing a card. -/
structure Cost where
  energy : Option Nat
  powerSymbols : List String
  raw : Option String
deriving DecidableEq

namespace Cost

/-- Appends a digit to a number. Digits outside ASCII have no value here, and 64 bits have to hold the result. -/
def appendDigit (n : Nat) (c : Char) : Option Nat :=
  let next := n * 10 + (c.toNat - '0'.toNat)
  if c.isDigit && next < UInt64.size then some next else none

/-- The number that all digits of a text spell together, if there are any. -/
def energyOf (text : List Char) : Option Nat :=
  match text.filter Text.isDecimalDigit with
  | [] => none
  | digits => digits.foldlM appendDigit 0

/-- The capital letters that stand in brackets, in order. -/
def bracketedCapitals : List Char → List Char
  | [] => []
  | c :: cs =>
    match c, cs with
    | '[', x :: ']' :: _ => if x.isUpper then x :: bracketedCapitals cs else bracketedCapitals cs
    | _, _ => bracketedCapitals cs

/-- Reads a cost such as `2[R][R]`. -/
def ofText (raw : String) : Cost where
  energy := energyOf raw.toList
  powerSymbols := distinct ((bracketedCapitals raw.toList).map fun c => c.toString)
  raw := if raw = "" then none else some raw

end Cost

end CardIndex
