import CardIndex.Json.Lexer

namespace CardIndex.Json.Parser

/-- An open container with what it holds so far, the latest first; an object also has the name of the member
whose value comes next. -/
inductive Frame
  | array (items : List Tree)
  | object (members : List (Option String × Tree)) (name : Option String)

/-- What the next token has to be, with the open containers from the innermost out. -/
inductive State
  | value (outer : List Frame)
  | arrayStart (outer : List Frame)
  | objectStart (outer : List Frame)
  | name (members : List (Option String × Tree)) (outer : List Frame)
  | colon (members : List (Option String × Tree)) (name : Option String) (outer : List Frame)
  | after (t : Tree) (outer : List Frame)

/-- One more container may be opened. -/
def hasRoom (limit : Option Nat) (outer : List Frame) : Bool := limit.all (outer.length < ·)

/-- The start of a value. -/
def openValue (limit : Option Nat) (outer : List Frame) : Token → Option State
  | .null => some (.after .null outer)
  | .bool b => some (.after (.bool b) outer)
  | .number n => some (.after (.number n) outer)
  | .string s => some (.after (.string s) outer)
  | .openArray => if hasRoom limit outer then some (.arrayStart outer) else none
  | .openObject => if hasRoom limit outer then some (.objectStart outer) else none
  | _ => none

/-- What may follow a finished value. -/
def close (t : Tree) : List Frame → Token → Option State
  | .array items :: outer, .comma => some (.value (.array (t :: items) :: outer))
  | .array items :: outer, .closeArray => some (.after (.array (t :: items).reverse) outer)
  | .object members name :: outer, .comma => some (.name ((name, t) :: members) outer)
  | .object members name :: outer, .closeObject => some (.after (.object ((name, t) :: members).reverse) outer)
  | _, _ => none

def step (limit : Option Nat) : State → Token → Option State
  | .value outer, token => openValue limit outer token
  | .arrayStart outer, .closeArray => some (.after (.array []) outer)
  | .arrayStart outer, token => openValue limit (.array [] :: outer) token
  | .objectStart outer, .closeObject => some (.after (.object []) outer)
  | .objectStart outer, .string s => some (.colon [] s outer)
  | .name members outer, .string s => some (.colon members s outer)
  | .colon members name outer, .colon => some (.value (.object members name :: outer))
  | .after t outer, token => close t outer token
  | _, _ => none

/-- The tree, once no container is open. -/
def finish? : State → Option Tree
  | .after t [] => some t
  | _ => none

/-- The tree of a token sequence with at most `limit` containers inside each other, if there is a limit. -/
def tree? (limit : Option Nat) (tokens : List Token) : Option Tree :=
  (tokens.foldlM (step limit) (.value [])).bind finish?

end CardIndex.Json.Parser

namespace CardIndex.Json.Tree

/-- Reads a JSON text with at most `limit` containers inside each other. -/
def ofTextWithin? (limit : Nat) (s : String) : Option Tree :=
  (Lexer.tokens? s.toList).bind (Parser.tree? (some limit))

/-- Reads a JSON text of any depth. -/
def ofText? (s : String) : Option Tree := (Lexer.tokens? s.toList).bind (Parser.tree? none)

end CardIndex.Json.Tree
