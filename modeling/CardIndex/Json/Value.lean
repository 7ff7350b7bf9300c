import CardIndex.Entries
import CardIndex.Json.Parser
import CardIndex.Json.Printer

namespace CardIndex.Json

/-- A number with the distinction that JSON text makes: what is written with a point or an exponent, or does
not fit 64 bits, is a float. -/
inductive Number
  | integer (n : Int)
  | float (x : Binary64)
deriving DecidableEq

namespace Number

def numeral : Number → Numeral
  | integer n => .integer n
  | float x => .ofBinary64 x

def ofNumeral? : Numeral → Option Number
  | .integer n => some (integer n)
  | n => n.toBinary64?.map float

def toBinary64? : Number → Option Binary64
  | integer n => Binary64.ofInt? n
  | float x => some x

end Number

/-- A JSON value. The members of an object are entries: in the order of their names, each name once. -/
inductive Value
  | null
  | bool (b : Bool)
  | number (n : Number)
  | string (s : String)
  | array (items : List Value)
  | object (members : List (String × Value))
deriving Inhabited

namespace Value

mutual

def ofTree? : Tree → Option Value
  | .null => some null
  | .bool b => some (bool b)
  | .number n => (Number.ofNumeral? n).map number
  | .string s => s.map string
  | .array items => (ofItems? items).map array
  | .object members => (ofMembers? [] members).map object

def ofItems? : List Tree → Option (List Value)
  | [] => some []
  | t :: ts => do
    let v ← ofTree? t
    let vs ← ofItems? ts
    some (v :: vs)

/-- Adds members one after the other, so that the last of a name stays. -/
def ofMembers? (sofar : Entries Value) : List (Option String × Tree) → Option (Entries Value)
  | [] => some sofar
  | (name, t) :: ms => do
    let name ← name
    let v ← ofTree? t
    ofMembers? (sofar.put name v) ms

end

mutual

def toTree : Value → Tree
  | null => .null
  | bool b => .bool b
  | number n => .number n.numeral
  | string s => .text s
  | array items => .array (itemTrees items)
  | object members => .object (memberTrees members)

def itemTrees : List Value → List Tree
  | [] => []
  | v :: vs => toTree v :: itemTrees vs

def memberTrees : List (String × Value) → List (Option String × Tree)
  | [] => []
  | (name, v) :: ms => (some name, toTree v) :: memberTrees ms

end

/-- How many containers may stand inside each other. -/
abbrev depthLimit : Nat := 127

def ofText? (s : String) : Option Value := (Tree.ofTextWithin? depthLimit s).bind ofTree?

def compactText (v : Value) : String := v.toTree.compactText

/-- The value of the member of that name, if this is an object that has it. -/
def member? (name : String) : Value → Option Value
  | object members => Entries.get? members name
  | _ => none

end Value

end CardIndex.Json
