import CardIndex.Json.Numeral

namespace CardIndex.Json

/-- What a JSON text says, with the members of objects in their order and none left out. A string literal may
spell an unpaired surrogate and so no text at all: it has the value `none`. -/
inductive Tree
  | null
  | bool (b : Bool)
  | number (n : Numeral)
  | string (s : Option String)
  | array (items : List Tree)
  | object (members : List (Option String × Tree))
deriving Inhabited

/-- A piece of a JSON text that white space may surround. -/
inductive Token
  | openArray
  | closeArray
  | openObject
  | closeObject
  | colon
  | comma
  | null
  | bool (b : Bool)
  | number (n : Numeral)
  | string (s : Option String)
deriving DecidableEq, Inhabited

namespace Tree

def text (s : String) : Tree := string (some s)

/-- An object whose member names are texts. -/
def record (members : List (String × Tree)) : Tree :=
  object (members.map fun (name, t) => (some name, t))

mutual

/-- The tokens of a tree in their order. -/
def tokens : Tree → List Token
  | null => [.null]
  | bool b => [.bool b]
  | number n => [.number n]
  | string s => [.string s]
  | array items => .openArray :: itemTokens items ++ [.closeArray]
  | object members => .openObject :: memberTokens members ++ [.closeObject]

def itemTokens : List Tree → List Token
  | [] => []
  | [t] => t.tokens
  | t :: ts => t.tokens ++ .comma :: itemTokens ts

def memberTokens : List (Option String × Tree) → List Token
  | [] => []
  | [(name, t)] => .string name :: .colon :: t.tokens
  | (name, t) :: ms => .string name :: .colon :: t.tokens ++ .comma :: memberTokens ms

end

end Tree

end CardIndex.Json
