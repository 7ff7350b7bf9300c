import CardIndex.Toml.Document

namespace CardIndex.Toml.Parser

/-- How deep arrays and inline tables may stand in each other, and how many parts a key may have. -/
abbrev depthLimit : Nat := 79

def isBareKeyChar (c : Char) : Bool := c.isAlphanum || c = '-' || c = '_'

def keyPart? (cs : List Char) : Option (String × List Char) :=
  match cs with
  | '"' :: _ => (quoted? cs).map fun (s, cs) => (String.ofList s, cs)
  | '\'' :: _ => (quoted? cs).map fun (s, cs) => (String.ofList s, cs)
  | _ =>
    let bare := cs.takeWhile isBareKeyChar
    if bare = [] then none else some (String.ofList bare, cs.drop bare.length)

/-- The parts of a key, with dots and blanks between them; `fuel` bounds their number. -/
def key? : (fuel : Nat) → List Char → Option (List String × List Char)
  | 0, _ => none
  | fuel + 1, cs => do
    let (part, rest) ← keyPart? (skipSpaces cs)
    match skipSpaces rest with
    | '.' :: rest =>
      let (parts, rest) ← key? fuel rest
      some (part :: parts, rest)
    | rest => some ([part], rest)

/-- A comment up to the end of its line. -/
def comment? : List Char → Option (List Char)
  | '#' :: cs =>
    let rest := cs.dropWhile isPlain
    if rest = [] || (lineEnd? rest).isSome then some rest else none
  | cs => some cs

/-- Blanks, line ends and comments, as between the items of an array. -/
def skipLines? : (fuel : Nat) → List Char → Option (List Char)
  | 0, cs => some cs
  | fuel + 1, cs => do
    let cs ← comment? (skipSpaces cs)
    match lineEnd? cs with
    | some cs => skipLines? fuel cs
    | none => some cs

/-- The members of an inline table, which dotted keys may group. -/
def groupPairs (pairs : List (List String × Value)) : Option Value := do
  let (_, ms) ← pairs.foldlM (fun (origin, ms) (key, v) =>
    Members.addDotted key.dropLast (key.getLast?.getD "") v origin ms) (Origin.header, [])
  some (.table (memberValues ms))

mutual

/-- A value. The fuel bounds the number of steps and is never used up, as each step takes a character. -/
def value? (depth : Nat) : (fuel : Nat) → List Char → Option (Value × List Char)
  | 0, _ => none
  | fuel + 1, cs =>
    match cs with
    | '"' :: _ => (string? cs).map fun (s, cs) => (.string (String.ofList s), cs)
    | '\'' :: _ => (string? cs).map fun (s, cs) => (.string (String.ofList s), cs)
    | '[' :: cs =>
      if depth = 0 then none
      else (items? (depth - 1) fuel cs).map fun (vs, cs) => (.array vs, cs)
    | '{' :: cs =>
      if depth = 0 then none
      else do
        let (pairs, cs) ← match skipSpaces cs with
          | '}' :: cs => some ([], cs)
          | cs => pairs? (depth - 1) fuel cs
        let v ← groupPairs pairs
        some (v, cs)
    | cs => Scalar.take? cs

/-- The items of an array up to its closing bracket; a comma may stand behind the last. -/
def items? (depth : Nat) : (fuel : Nat) → List Char → Option (List Value × List Char)
  | 0, _ => none
  | fuel + 1, cs => do
    match ← skipLines? fuel cs with
    | ']' :: cs => some ([], cs)
    | cs =>
      let (v, cs) ← value? depth fuel cs
      match ← skipLines? fuel cs with
      | ',' :: cs =>
        let (vs, cs) ← items? depth fuel cs
        some (v :: vs, cs)
      | ']' :: cs => some ([v], cs)
      | _ => none

/-- The members of an inline table up to its closing brace. -/
def pairs? (depth : Nat) : (fuel : Nat) → List Char → Option (List (List String × Value) × List Char)
  | 0, _ => none
  | fuel + 1, cs => do
    let (key, cs) ← key? depthLimit cs
    let cs ← Scalar.char? '=' cs
    let (v, cs) ← value? depth fuel (skipSpaces cs)
    match skipSpaces cs with
    | ',' :: cs =>
      let (pairs, cs) ← pairs? depth fuel cs
      some ((key, v) :: pairs, cs)
    | '}' :: cs => some ([(key, v)], cs)
    | _ => none

end

/-- One statement without what follows it on its line. -/
def statement? (d : Document) (fuel : Nat) (cs : List Char) : Option (Document × List Char) :=
  match cs with
  | '[' :: '[' :: cs => do
    let (key, cs) ← key? depthLimit cs
    let cs ← (Scalar.char? ']' cs).bind (Scalar.char? ']')
    let d ← d.rowHeader key.dropLast (key.getLast?.getD "")
    some (d, cs)
  | '[' :: cs => do
    let (key, cs) ← key? depthLimit cs
    let cs ← Scalar.char? ']' cs
    let d ← d.header key.dropLast (key.getLast?.getD "")
    some (d, cs)
  | cs => do
    let (key, cs) ← key? depthLimit cs
    let cs ← Scalar.char? '=' cs
    let (v, cs) ← value? depthLimit fuel (skipSpaces cs)
    let d ← d.assign key.dropLast (key.getLast?.getD "") v
    some (d, cs)

/-- Statement after statement, at most one on a line. -/
def statements? (d : Document) : (fuel : Nat) → List Char → Option Document
  | 0, _ => none
  | fuel + 1, cs => do
    match ← skipLines? fuel cs with
    | [] => some d
    | cs =>
      let (d, cs) ← statement? d fuel cs
      match ← comment? (skipSpaces cs) with
      | [] => some d
      | cs => (lineEnd? cs).bind (statements? d fuel)

/-- The members of a document's root table. A byte order mark may stand in front. -/
def document? (text : String) : Option (List (String × Value)) :=
  let cs := match text.toList with
    | '\uFEFF' :: cs => cs
    | cs => cs
  (statements? .empty (cs.length + 2) cs).map Document.toMembers

end CardIndex.Toml.Parser
