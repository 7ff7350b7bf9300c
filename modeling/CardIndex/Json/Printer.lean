import CardIndex.Json.Tree

namespace CardIndex.Json.Printer

def hexChar (n : Nat) : Char := Nat.digitChar n

/-- Only quotes, backslashes and control characters are escaped. -/
def escape (c : Char) : List Char :=
  if c = '"' then ['\\', '"']
  else if c = '\\' then ['\\', '\\']
  else if c = '\x08' then ['\\', 'b']
  else if c = '\x0C' then ['\\', 'f']
  else if c = '\n' then ['\\', 'n']
  else if c = '\r' then ['\\', 'r']
  else if c = '\t' then ['\\', 't']
  else if c.toNat < 0x20 then ['\\', 'u', '0', '0', hexChar (c.toNat / 16), hexChar (c.toNat % 16)]
  else [c]

/-- A string literal. One that spells no text has no other form than its unpaired surrogate. -/
def literal : Option String → List Char
  | some s => '"' :: s.toList.flatMap escape ++ ['"']
  | none => ['"', '\\', 'u', 'd', '8', '0', '0', '"']

def scalar : Tree → List Char
  | .null => ['n', 'u', 'l', 'l']
  | .bool true => ['t', 'r', 'u', 'e']
  | .bool false => ['f', 'a', 'l', 's', 'e']
  | .number n => n.text
  | .string s => literal s
  | _ => []

mutual

/-- Writes a tree without white space. -/
def compact : Tree → List Char
  | .array items => '[' :: compactItems items ++ [']']
  | .object members => '{' :: compactMembers members ++ ['}']
  | t => scalar t

def compactItems : List Tree → List Char
  | [] => []
  | [t] => compact t
  | t :: ts => compact t ++ ',' :: compactItems ts

def compactMembers : List (Option String × Tree) → List Char
  | [] => []
  | [(name, t)] => literal name ++ ':' :: compact t
  | (name, t) :: ms => literal name ++ ':' :: compact t ++ ',' :: compactMembers ms

end

/-- A new line with two blanks for each open container. -/
def newLine (depth : Nat) : List Char := '\n' :: List.replicate (2 * depth) ' '

mutual

/-- Writes a tree with one item or member a line; empty containers stay on theirs. -/
def pretty (depth : Nat) : Tree → List Char
  | .array [] => ['[', ']']
  | .array (t :: ts) => '[' :: prettyItems (depth + 1) (t :: ts) ++ newLine depth ++ [']']
  | .object [] => ['{', '}']
  | .object (m :: ms) => '{' :: prettyMembers (depth + 1) (m :: ms) ++ newLine depth ++ ['}']
  | t => scalar t

def prettyItems (depth : Nat) : List Tree → List Char
  | [] => []
  | [t] => newLine depth ++ pretty depth t
  | t :: ts => newLine depth ++ pretty depth t ++ ',' :: prettyItems depth ts

def prettyMembers (depth : Nat) : List (Option String × Tree) → List Char
  | [] => []
  | [(name, t)] => newLine depth ++ literal name ++ ':' :: ' ' :: pretty depth t
  | (name, t) :: ms =>
    newLine depth ++ literal name ++ ':' :: ' ' :: pretty depth t ++ ',' :: prettyMembers depth ms

end

end CardIndex.Json.Printer

namespace CardIndex.Json.Tree

def compactText (t : Tree) : String := String.ofList (Printer.compact t)

def prettyText (t : Tree) : String := String.ofList (Printer.pretty 0 t)

end CardIndex.Json.Tree
