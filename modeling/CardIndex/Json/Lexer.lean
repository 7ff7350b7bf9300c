import CardIndex.Json.Tree
import CardIndex.Text.HexDigit

namespace CardIndex.Json.Lexer

/-- An element of a string literal: a character as it stands, or the UTF-16 unit of an escape. -/
inductive Piece
  | char (c : Char)
  | unit (n : Nat)
deriving DecidableEq

/-- The character that two UTF-16 units spell together. -/
def surrogatePair? (high low : Nat) : Option Char :=
  if 0xD800 ≤ high ∧ high < 0xDC00 ∧ 0xDC00 ≤ low ∧ low < 0xE000 then
    some (Char.ofNat (0x10000 + (high - 0xD800) * 0x400 + (low - 0xDC00)))
  else none

/-- The text that the pieces spell; there is none if a surrogate stands alone. -/
def spell : List Piece → Option (List Char)
  | [] => some []
  | .char c :: ps => (spell ps).map (c :: ·)
  | .unit n :: ps =>
    if 0xD800 ≤ n ∧ n < 0xE000 then
      match ps with
      | .unit m :: ps => (surrogatePair? n m).bind fun c => (spell ps).map (c :: ·)
      | _ => none
    else (spell ps).map (Char.ofNat n :: ·)

/-- What the lexer is in the middle of. Lists hold the latest element first. -/
inductive Mode
  | between
  | word (letters : List Char)
  | number (digits : List Char)
  | string (pieces : List Piece)
  | escape (pieces : List Piece)
  | hex (pieces : List Piece) (missing value : Nat)
deriving DecidableEq

structure State where
  mode : Mode
  tokens : List Token
deriving DecidableEq

def start : State := ⟨.between, []⟩

def isSpace (c : Char) : Bool := c = ' ' || c = '\t' || c = '\n' || c = '\r'

def isNumberChar (c : Char) : Bool := c.isDigit || c = '-' || c = '+' || c = '.' || c = 'e' || c = 'E'

def wordToken? (letters : List Char) : Option Token :=
  if letters = ['n', 'u', 'l', 'l'] then some .null
  else if letters = ['t', 'r', 'u', 'e'] then some (.bool true)
  else if letters = ['f', 'a', 'l', 's', 'e'] then some (.bool false)
  else none

def escapeChar? : Char → Option Char
  | '"' => some '"'
  | '\\' => some '\\'
  | '/' => some '/'
  | 'b' => some '\x08'
  | 'f' => some '\x0C'
  | 'n' => some '\n'
  | 'r' => some '\r'
  | 't' => some '\t'
  | _ => none

/-- The next character where no token has begun. -/
def begin (c : Char) (ts : List Token) : Option State :=
  if isSpace c then some ⟨.between, ts⟩
  else if c = '[' then some ⟨.between, .openArray :: ts⟩
  else if c = ']' then some ⟨.between, .closeArray :: ts⟩
  else if c = '{' then some ⟨.between, .openObject :: ts⟩
  else if c = '}' then some ⟨.between, .closeObject :: ts⟩
  else if c = ':' then some ⟨.between, .colon :: ts⟩
  else if c = ',' then some ⟨.between, .comma :: ts⟩
  else if c = '"' then some ⟨.string [], ts⟩
  else if c = '-' || c.isDigit then some ⟨.number [c], ts⟩
  else if c.isLower then some ⟨.word [c], ts⟩
  else none

def stringToken (pieces : List Piece) : Token :=
  .string ((spell pieces.reverse).map String.ofList)

/-- The tokens once a word or number is known to have ended. -/
def settle (s : State) : Option (List Token) :=
  match s.mode with
  | .between => some s.tokens
  | .word letters => (wordToken? letters.reverse).map (· :: s.tokens)
  | .number digits => (Numeral.ofText? digits.reverse).map (.number · :: s.tokens)
  | _ => none

def feed (s : State) (c : Char) : Option State :=
  match s.mode with
  | .between => begin c s.tokens
  | .word letters =>
    if c.isLower then some { s with mode := .word (c :: letters) } else (settle s).bind (begin c)
  | .number digits =>
    if isNumberChar c then some { s with mode := .number (c :: digits) } else (settle s).bind (begin c)
  | .string pieces =>
    if c = '"' then some ⟨.between, stringToken pieces :: s.tokens⟩
    else if c = '\\' then some { s with mode := .escape pieces }
    else if c.toNat < 0x20 then none
    else some { s with mode := .string (.char c :: pieces) }
  | .escape pieces =>
    if c = 'u' then some { s with mode := .hex pieces 4 0 }
    else (escapeChar? c).map fun e => { s with mode := .string (.char e :: pieces) }
  | .hex pieces missing value =>
    (Text.hexDigit? c).map fun d =>
      let value := value * 16 + d
      if missing = 1 then { s with mode := .string (.unit value :: pieces) }
      else { s with mode := .hex pieces (missing - 1) value }

/-- The tokens of a text, or none if it is not made of tokens and white space. -/
def tokens? (text : List Char) : Option (List Token) :=
  ((text.foldlM feed start).bind settle).map List.reverse

end CardIndex.Json.Lexer
