import CardIndex.Json.Parser

namespace CardIndex.Json

/-- The values that a tree gives for the fields of a structure. -/
abbrev Fields := List (String × Tree)

namespace Tree

/-- The members whose names are among the given ones. All names have to be texts, and none of the given ones
may come twice; other members may be anything. -/
def knownMembers? (names : List String) (members : List (Option String × Tree)) : Option Fields := do
  let named ← members.mapM fun (name, t) => name.map (·, t)
  let known := named.filter (·.1 ∈ names)
  if (known.map (·.1)).Nodup then some known else none

/-- Reads a structure with the given fields from an object, or from an array that holds them all in order. -/
def fields? (names : List String) : Tree → Option Fields
  | object members => knownMembers? names members
  | array items => if items.length = names.length then some (names.zip items) else none
  | _ => none

def text? : Tree → Option String
  | string s => s
  | _ => none

def bool? : Tree → Option Bool
  | bool b => some b
  | _ => none

/-- A natural number of 64 bits, written without point and exponent. -/
def natural? : Tree → Option Nat
  | number (.integer n) => if 0 ≤ n then some n.toNat else none
  | _ => none

/-- Any number, as one of double precision. -/
def binary64? : Tree → Option Binary64
  | number n => n.toBinary64?
  | _ => none

def list? {α : Type} (item? : Tree → Option α) : Tree → Option (List α)
  | array items => items.mapM item?
  | _ => none

/-- A value or null. -/
def optional? {α : Type} (value? : Tree → Option α) : Tree → Option (Option α)
  | null => some none
  | t => (value? t).map some

def natural (n : Nat) : Tree := number (.integer n)

def binary64 (x : Binary64) : Tree := number (.ofBinary64 x)

def list {α : Type} (item : α → Tree) (items : List α) : Tree := array (items.map item)

def optional {α : Type} (value : α → Tree) : Option α → Tree
  | none => null
  | some a => value a

end Tree

namespace Fields

/-- The value of a field that must be there. -/
def required {α : Type} (fields : Fields) (name : String) (value? : Tree → Option α) : Option α :=
  (fields.lookup name).bind value?

/-- The value of a field that may be null or missing. -/
def nullable {α : Type} (fields : Fields) (name : String) (value? : Tree → Option α) : Option (Option α) :=
  ((fields.lookup name).getD .null).optional? value?

end Fields

end CardIndex.Json
