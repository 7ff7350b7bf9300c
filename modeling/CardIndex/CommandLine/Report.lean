import CardIndex.Disk.Basic

namespace CardIndex.CommandLine

/-- What a program leaves behind beside files. `stdout` is what the program itself prints: lines of its log, which
go to the console as well and to a file in `logs`, are no part of it. -/
structure Outcome where
  code : UInt32
  stdout : String
  stderr : String
deriving DecidableEq

/-- A failure and what was being done. -/
structure Trouble where
  context : Option String
  failure : Failure
deriving DecidableEq

namespace Trouble

/-- Failures that have a cause of their own. -/
def cause? : Failure → Option String
  | .io e => some e.message
  | _ => none

/-- Failures that are numbered as causes, since another cause follows. -/
def isNumbered : Failure → Bool
  | .http => true
  | .json => true
  | .toml => true
  | .io _ => true
  | _ => false

/-- Where the words of a library would follow the report breaks off, without a line end. -/
def lineEnd (f : Failure) : String := if f.isExplained then "" else "\n"

/-- A cause under its mark. The lines after the first stand as far to the right. -/
def marked (mark text : String) : String :=
  let indentation := List.replicate mark.length ' '
  mark ++ String.ofList (text.toList.flatMap fun c => if c = '\n' then c :: indentation else [c])

def mark (f : Failure) : String := if isNumbered f then "    0: " else "    "

/-- The report on a failure: the context first if there is one, then the causes, with numbers if there are
several. -/
def report (t : Trouble) : String :=
  let f := t.failure
  match t.context, cause? f with
  | none, none => "Error: " ++ f.message ++ lineEnd f
  | none, some cause => "Error: " ++ f.message ++ "\n\nCaused by:\n" ++ marked "    " cause ++ "\n"
  | some context, cause =>
    let first := marked (mark f) f.message ++ lineEnd f
    let second := (cause.map fun c => marked "    1: " c ++ "\n").getD ""
    "Error: " ++ context ++ "\n\nCaused by:\n" ++ first ++ second

end Trouble

/-- A program that writes lines to standard output and may fail. What it logs on the way, the failure that it ends
with among it, is left out. -/
abbrev Session (m : Type → Type) := ExceptT Trouble (StateT String m)

namespace Session

variable {m : Type → Type} [Monad m]

def say (line : String) : Session m Unit := modifyThe String (· ++ line ++ "\n")

def attempt {α : Type} (context : Option String) (x : Attempt m α) : Session m α :=
  ExceptT.mk (StateT.lift ((Except.mapError (Trouble.mk context)) <$> x.run))

/-- Does a part of the work that reports name by its context. -/
def within {α : Type} (context : String) (x : Attempt m α) : Session m α := attempt (some context) x

def plainly {α : Type} (x : Attempt m α) : Session m α := attempt none x

def settled {α : Type} (x : Except SettingsFault α) : Session m α :=
  plainly (ExceptT.mk (pure (x.mapError .settings)))

/-- Runs a session to its end. -/
def outcome (x : Session m Unit) : m Outcome := do
  match ← x.run.run "" with
  | (.ok (), stdout) => pure ⟨0, stdout, ""⟩
  | (.error trouble, stdout) => pure ⟨1, stdout, trouble.report⟩

end Session

end CardIndex.CommandLine
