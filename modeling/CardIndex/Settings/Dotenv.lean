import CardIndex.Disk.Basic
import CardIndex.Text.Alphanumeric
import CardIndex.Text.Blank

namespace CardIndex

/-- The variables that a program is started with. -/
class Environment (m : Type → Type) where
  get? : String → m (Option String)

namespace Dotenv

/-- A part of a value: text as it stands, or the value of a variable. -/
inductive Part
  | char (c : Char)
  | variable (name : List Char)

/-- What a value is in the middle of. Between double quotes the same holds as outside, but for blanks. -/
inductive Mode
  | plain (quoted : Bool)
  | literal
  | escaped (quoted : Bool)
  | name (quoted : Bool) (sofar : List Char)
  | braced (quoted : Bool) (sofar : List Char)
  | over
  | comment

/-- A value as far as it is read, the latest part first. -/
structure State where
  mode : Mode
  parts : List Part

def isSpace (c : Char) : Bool := c = ' ' || c = '\t'

def isEscapable (c : Char) : Bool := c = '\\' || c = '\'' || c = '"' || c = '$' || c = ' '

/-- One more character of a value. The name of a variable ends at the first character that is no letter and
no number, and this one then stands for itself, even if it is a quote. -/
def feed (s : State) (c : Char) : Option State :=
  match s.mode with
  | .over =>
    if isSpace c then some s else if c = '#' then some { s with mode := .comment } else none
  | .comment => some s
  | .escaped quoted =>
    if isEscapable c then some ⟨.plain quoted, .char c :: s.parts⟩
    else if c = 'n' then some ⟨.plain quoted, .char '\n' :: s.parts⟩
    else none
  | .literal =>
    if c = '\'' then some { s with mode := .plain false } else some { s with parts := .char c :: s.parts }
  | .name quoted sofar =>
    if Text.isAlphanumeric c then some { s with mode := .name quoted (c :: sofar) }
    else if c = '{' && sofar.isEmpty then some { s with mode := .braced quoted [] }
    else
      let parts := .variable sofar.reverse :: s.parts
      if c = '$' then some ⟨.name quoted [], parts⟩ else some ⟨.plain quoted, .char c :: parts⟩
  | .braced quoted sofar =>
    if c = '}' then some ⟨.plain quoted, .variable sofar.reverse :: s.parts⟩
    else some { s with mode := .braced quoted (c :: sofar) }
  | .plain quoted =>
    if c = '$' then some { s with mode := .name quoted [] }
    else if c = '\\' then some { s with mode := .escaped quoted }
    else if c = '"' then some { s with mode := .plain (!quoted) }
    else if !quoted && c = '\'' then some { s with mode := .literal }
    else if !quoted && isSpace c then some { s with mode := .over }
    else some { s with parts := .char c :: s.parts }

/-- The parts of a value that has ended; no quote and no brace may be open. -/
def finish? (s : State) : Option (List Part) :=
  match s.mode with
  | .plain false => some s.parts.reverse
  | .escaped false => some s.parts.reverse
  | .name false sofar => some (Part.variable sofar.reverse :: s.parts).reverse
  | .over => some s.parts.reverse
  | .comment => some s.parts.reverse
  | _ => none

def value? (cs : List Char) : Option (List Part) :=
  if cs.head? = some '#' then some [] else (cs.foldlM feed ⟨.plain false, []⟩).bind finish?

def isNameStart (c : Char) : Bool := c.isAlpha || c = '_'

def isNameChar (c : Char) : Bool := c.isAlphanum || c = '_' || c = '.'

/-- A name and the rest of the line without the white space before it. -/
def takeName? (cs : List Char) : Option (List Char × List Char) :=
  if (cs.head?.map isNameStart).getD false then
    some (cs.takeWhile isNameChar, Text.trimStart (cs.dropWhile isNameChar))
  else none

def afterEqual? : List Char → Option (List Char)
  | '=' :: cs => some (Text.trimStart cs)
  | _ => none

/-- What a line says. -/
inductive Line
  | blank
  | assignment (name : String) (value : List Part)

/-- Reads a line. The word `export` may stand before a name, and is a name itself if an equals sign follows. -/
def line? (text : String) : Option Line :=
  let cs := Text.trim text.toList
  if cs = [] || cs.head? = some '#' then some .blank
  else do
    let (name, rest) ← takeName? cs
    let (name, rest) ← match afterEqual? rest with
      | some rest => some (name, rest)
      | none =>
        if name = "export".toList then do
          let (name, rest) ← takeName? rest
          let rest ← afterEqual? rest
          some (name, rest)
        else none
    let value ← value? rest
    some (.assignment (String.ofList name) value)

/-- The value of a variable: the environment's, or else one that is added to it. -/
def lookup {m : Type → Type} [Monad m] [Environment m] (added : List (String × String)) (name : String) :
    m (Option String) := do
  pure ((← Environment.get? name).or (added.lookup name))

/-- The text of a value. A variable that is not set stands for nothing. -/
def expand {m : Type → Type} [Monad m] [Environment m] (added : List (String × String)) :
    List Part → m String
  | [] => pure ""
  | .char c :: parts => do pure (c.toString ++ (← expand added parts))
  | .variable name :: parts => do
    let value ← lookup (m := m) added (String.ofList name)
    pure (value.getD "" ++ (← expand added parts))

/-- The variables that lines add. One that is set stays as it is, and the first line that cannot be read ends
the reading. -/
def additions {m : Type → Type} [Monad m] [Environment m] (added : List (String × String)) :
    List (Option String) → m (List (String × String))
  | [] => pure added
  | text :: rest =>
    match text.bind line? with
    | none => pure added
    | some .blank => additions added rest
    | some (.assignment name value) => do
      let value ← expand (m := m) added value
      match ← lookup (m := m) added name with
      | some _ => additions added rest
      | none => additions ((name, value) :: added) rest

/-- The lines of a file; those that are not UTF-8 have no text. -/
def linesOf (content : ByteArray) : List (Option String) :=
  (content.toList.splitOnP (· = 10)).map fun bytes => String.fromUTF8? ⟨bytes.toArray⟩

/-- The content of the file in a directory or, failing that, in the nearest one above. -/
def find {m : Type → Type} [Monad m] [Disk m] : (levels : Nat) → Path → m (Option ByteArray)
  | 0, _ => pure none
  | levels + 1, directory => do
    match ← Disk.read (directory.join ".env") with
    | .ok content => pure (some content)
    | .error .notFound => above levels directory
    | .error .isADirectory => above levels directory
    | .error _ => pure none
where
  above (levels : Nat) (directory : Path) : m (Option ByteArray) :=
    match directory.parent? with
    | some parent => find levels parent
    | none => pure none

/-- The variables that the file adds to the environment. -/
def load {m : Type → Type} [Monad m] [Disk m] [Environment m] : m (List (String × String)) := do
  let directory ← Disk.currentDirectory
  match ← find (directory.parts.length + 1) directory with
  | some content => additions [] (linesOf content)
  | none => pure []

end Dotenv

end CardIndex
