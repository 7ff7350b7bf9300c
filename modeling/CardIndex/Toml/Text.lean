import CardIndex.Text.HexDigit

namespace CardIndex.Toml

def isSpace (c : Char) : Bool := c = ' ' || c = '\t'

/-- The characters that may stand in comments and strings. -/
def isPlain (c : Char) : Bool := c = '\t' || (0x20 ≤ c.toNat && c.toNat ≠ 0x7F)

def skipSpaces (cs : List Char) : List Char := cs.dropWhile isSpace

/-- Takes a line end off a text: a line feed, before which a carriage return may stand. -/
def lineEnd? : List Char → Option (List Char)
  | '\n' :: cs => some cs
  | '\r' :: '\n' :: cs => some cs
  | _ => none

/-- The character whose code the hexadecimal digits give. -/
def scalarOf? (digits : List Char) : Option Char := do
  let n ← digits.foldlM (fun n c => (Text.hexDigit? c).map (n * 16 + ·)) 0
  if n.isValidChar then some (Char.ofNat n) else none

def escapeOf? : Char → Option Char
  | 'b' => some '\x08'
  | 't' => some '\t'
  | 'n' => some '\n'
  | 'f' => some '\x0C'
  | 'r' => some '\r'
  | '"' => some '"'
  | '\\' => some '\\'
  | _ => none

/-- Puts a character in front of the text that was taken. -/
def consTaken (c : Char) (rest : Option (List Char × List Char)) : Option (List Char × List Char) :=
  rest.map fun (s, cs) => (c :: s, cs)

/-- What follows the opening quote of a basic string. -/
def basicBody : List Char → Option (List Char × List Char)
  | '"' :: cs => some ([], cs)
  | '\\' :: 'u' :: a :: b :: c :: d :: cs =>
    (scalarOf? [a, b, c, d]).bind fun e => consTaken e (basicBody cs)
  | '\\' :: 'U' :: a :: b :: c :: d :: e :: f :: g :: h :: cs =>
    (scalarOf? [a, b, c, d, e, f, g, h]).bind fun x => consTaken x (basicBody cs)
  | '\\' :: c :: cs => (escapeOf? c).bind fun e => consTaken e (basicBody cs)
  | c :: cs => if isPlain c && c ≠ '\\' then consTaken c (basicBody cs) else none
  | [] => none

/-- What follows the opening quote of a literal string. -/
def literalBody : List Char → Option (List Char × List Char)
  | '\'' :: cs => some ([], cs)
  | c :: cs => if isPlain c then consTaken c (literalBody cs) else none
  | [] => none

/-- The quotes, at most two, that stand right behind a closing mark and still belong to the string. -/
def closingQuotes (quote : Char) : List Char → List Char × List Char
  | a :: b :: cs =>
    if a = quote then if b = quote then ([quote, quote], cs) else ([quote], b :: cs) else ([], a :: b :: cs)
  | [a] => if a = quote then ([quote], []) else ([], [a])
  | [] => ([], [])

/-- Only spaces stand before the end of the line. -/
def isLineRest (cs : List Char) : Bool := (lineEnd? (skipSpaces cs)).isSome

/-- What follows the opening mark of a basic string over several lines. `skipping` says that a backslash at
the end of a line takes away the white space that comes. -/
def basicLines (skipping : Bool) : List Char → Option (List Char × List Char)
  | '"' :: '"' :: '"' :: cs => some (closingQuotes '"' cs)
  | '\r' :: '\n' :: cs => if skipping then basicLines true cs else consTaken '\n' (basicLines false cs)
  | '\n' :: cs => if skipping then basicLines true cs else consTaken '\n' (basicLines false cs)
  | '\\' :: 'u' :: a :: b :: c :: d :: cs =>
    (scalarOf? [a, b, c, d]).bind fun e => consTaken e (basicLines false cs)
  | '\\' :: 'U' :: a :: b :: c :: d :: e :: f :: g :: h :: cs =>
    (scalarOf? [a, b, c, d, e, f, g, h]).bind fun x => consTaken x (basicLines false cs)
  | '\\' :: c :: cs =>
    if isLineRest (c :: cs) then basicLines true (c :: cs)
    else (escapeOf? c).bind fun e => consTaken e (basicLines false cs)
  | c :: cs =>
    if skipping && isSpace c then basicLines true cs
    else if isPlain c && c ≠ '\\' then consTaken c (basicLines false cs)
    else none
  | [] => none

/-- What follows the opening mark of a literal string over several lines. -/
def literalLines : List Char → Option (List Char × List Char)
  | '\'' :: '\'' :: '\'' :: cs => some (closingQuotes '\'' cs)
  | '\r' :: '\n' :: cs => consTaken '\n' (literalLines cs)
  | c :: cs => if isPlain c || c = '\n' then consTaken c (literalLines cs) else none
  | [] => none

/-- A line end right behind the opening mark does not belong to the string. -/
def afterOpening (cs : List Char) : List Char := (lineEnd? cs).getD cs

/-- A string on one line, as a key may be too. -/
def quoted? : List Char → Option (List Char × List Char)
  | '"' :: cs => basicBody cs
  | '\'' :: cs => literalBody cs
  | _ => none

def string? : List Char → Option (List Char × List Char)
  | '"' :: '"' :: '"' :: cs => basicLines false (afterOpening cs)
  | '\'' :: '\'' :: '\'' :: cs => literalLines (afterOpening cs)
  | cs => quoted? cs

end CardIndex.Toml
