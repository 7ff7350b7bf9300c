import CardIndex.Json.Value
import CardIndex.Text.Blank

namespace CardIndex.Cell

open Json (Value Number)

/-- A number as text. A float that is an integer of less than 64 bits is written as one, without a point. -/
def numberText : Number → List Char
  | .integer n => Json.Numeral.integerText n
  | .float x =>
    match x.integer? with
    | some n =>
      if n.natAbs ≤ Int64.maxValue.toInt then Json.Numeral.integerText n else (Number.float x).numeral.text
    | none => (Number.float x).numeral.text

mutual

/-- The text of a cell: null is empty, a string is trimmed, the items of an array are joined by commas, and an
object is its JSON text. -/
def text : Value → String
  | .null => ""
  | .bool true => "true"
  | .bool false => "false"
  | .number n => String.ofList (numberText n)
  | .string s => s.trimBlank
  | .array items => ",".intercalate (texts items)
  | .object members => (Value.object members).compactText

def texts : List Value → List String
  | [] => []
  | v :: vs => text v :: texts vs

end

/-- The text of a cell, if it is not empty. -/
def text? (v : Value) : Option String :=
  let s := text v
  if s = "" then none else some s

/-- The number that a cell holds, or that its text spells. -/
def number? : Value → Option Binary64
  | .number n => n.toBinary64?
  | .string s => (Decimal.ofText? (Text.trim s.toList)).bind Binary64.ofDecimal?
  | _ => none

def isListSeparator (c : Char) : Bool := c = ',' || c = '/'

/-- The entries of a list cell: the items of an array, or the parts of a text between commas and slashes. -/
def list : Value → List String
  | .array items => (texts items).filter (· ≠ "")
  | v => (Text.trimmedPieces ((text v).toList.splitOnP isListSeparator)).map String.ofList

end CardIndex.Cell
