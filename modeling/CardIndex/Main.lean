import CardIndex.CommandLine.Catalog
import CardIndex.CommandLine.Validation
import Std.Time.DateTime.Timestamp

namespace CardIndex.Machine

def ioError : IO.Error → IoError
  | .noFileOrDirectory _ _ _ => .notFound
  | .alreadyExists _ _ _ => .alreadyExists
  | .inappropriateType _ code _ => if code = 20 then .notADirectory else .isADirectory
  | e => .other e.toString

def guarded {α : Type} (operation : IO α) : IO (Except IoError α) := do
  match ← EIO.toBaseIO operation with
  | .ok a => pure (.ok a)
  | .error e => pure (.error (ioError e))

instance : Disk IO where
  currentDirectory := do pure (← IO.currentDir).toString
  holds path := do pure (← EIO.toBaseIO (IO.FS.realPath path)).isOk
  read path := guarded (IO.FS.readBinFile path)
  write path content := guarded (IO.FS.writeBinFile path content)
  makeDirectories path := if path = "" then pure (.ok ()) else guarded (IO.FS.createDirAll path)
  move source target := guarded (IO.FS.rename source target)

/-- The clock stands still at the end of the supported years. -/
def lastMoment : Timestamp :=
  ⟨⟨262142, 12, 31, by decide, by decide, by decide⟩, 23, 59, 59, 0,
    by decide, by decide, by decide, by decide⟩

/-- A day, in milliseconds. -/
abbrev day : Nat := 86400000

/-- Sleeps day by day, as no single sleep may be much longer. -/
def sleep (milliseconds : Nat) : IO Unit := do
  for _ in [0:milliseconds / day] do IO.sleep (UInt32.ofNat day)
  IO.sleep (UInt32.ofNat (milliseconds % day))

instance : Clock IO where
  now := do
    let t ← Std.Time.Timestamp.now
    pure ((Timestamp.ofUnixNanoseconds? t.toNanosecondsSinceUnixEpoch.val).getD lastMoment)
  pause d := sleep (d.pauseLength / 1000000)

instance : Environment IO where
  get? name := IO.getEnv name

/-- No image is requested here: every request fails. -/
instance : ImageSource IO where
  fetch _ := pure .failed

end CardIndex.Machine

open CardIndex in
/-- Which program runs depends on the name under which it was started. -/
def main (arguments : List String) : IO UInt32 := do
  let name := (← IO.appPath).fileName
  let outcome ← if name = some "validate-dataset" then CommandLine.Validation.program arguments
    else CommandLine.Catalog.program arguments
  IO.print outcome.stdout
  IO.eprint outcome.stderr
  pure outcome.code
