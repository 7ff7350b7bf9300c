import CardIndex.Disk.FileSystem
import CardIndex.Duration
import CardIndex.Timestamp.Basic

namespace CardIndex

/-- The file operations that a program may use. -/
class Disk (m : Type → Type) where
  currentDirectory : m Path
  holds : Path → m Bool
  read : Path → m (Except IoError ByteArray)
  write : Path → ByteArray → m (Except IoError Unit)
  makeDirectories : Path → m (Except IoError Unit)
  move : Path → Path → m (Except IoError Unit)

/-- Reads a file as UTF-8. -/
def Disk.readText {m : Type → Type} [Monad m] [Disk m] (path : Path) : m (Except IoError String) := do
  pure ((← Disk.read path).bind FileSystem.decode)

/-- The time, and waiting for it. No pause is longer than the longest, whatever is asked for. -/
class Clock (m : Type → Type) where
  now : m Timestamp
  pause : Duration → m Unit

/-- A program that may fail. -/
abbrev Attempt (m : Type → Type) := ExceptT Failure m

/-- A file operation as part of a program that fails with it. -/
def Attempt.io {m : Type → Type} [Monad m] {α : Type} (operation : m (Except IoError α)) : Attempt m α :=
  ExceptT.mk ((Except.mapError Failure.io) <$> operation)

namespace FileSystem

instance : Disk (StateM FileSystem) where
  currentDirectory := fun fs => ("/" ++ "/".intercalate fs.workingDirectory, fs)
  holds path := fun fs => (fs.holds path, fs)
  read path := fun fs => (fs.read path, fs)
  write path content := change (·.write path content)
  makeDirectories := makeDirectories
  move source target := change (·.move source target)

end FileSystem

instance {σ : Type} {m : Type → Type} [Monad m] [Disk m] : Disk (StateT σ m) where
  currentDirectory := StateT.lift Disk.currentDirectory
  holds path := StateT.lift (Disk.holds path)
  read path := StateT.lift (Disk.read path)
  write path content := StateT.lift (Disk.write path content)
  makeDirectories path := StateT.lift (Disk.makeDirectories path)
  move source target := StateT.lift (Disk.move source target)

instance {σ : Type} {m : Type → Type} [Monad m] [Clock m] : Clock (StateT σ m) where
  now := StateT.lift Clock.now
  pause d := StateT.lift (Clock.pause d)

end CardIndex
